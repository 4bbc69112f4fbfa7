import ScaphandreFormal.Foundation.Decimal
import ScaphandreFormal.Foundation.Fallible
import Mathlib.Data.List.TakeWhile

/-!
# The text exposition format

A parser of the text format in which metrics are exposed: lines of samples, comments
and metadata.  It takes a text apart at its newlines, so that what one line holds has
no influence on the others, and it returns nothing at all when one line is malformed.
-/

namespace ScaphandreFormal.Foundation

/-- A sample: its name, its labels in their order, and the text of its value. -/
structure Sample where
  name : Text
  labels : List (Text × Text)
  value : Text
  deriving DecidableEq, Repr

namespace Exposition

/-! ## Names and numbers -/

def isLabelChar (c : Char) : Bool := c.isAlphanum || c = '_'

def isMetricChar (c : Char) : Bool := isLabelChar c || c = ':'

/-- `[a-zA-Z_][a-zA-Z0-9_]*`. -/
def isLabelName : Text → Bool
  | [] => false
  | first :: rest => !first.isDigit && (first :: rest).all isLabelChar

/-- `[a-zA-Z_:][a-zA-Z0-9_:]*`. -/
def isMetricName : Text → Bool
  | [] => false
  | first :: rest => !first.isDigit && (first :: rest).all isMetricChar

def withoutSign : Text → Text
  | '+' :: digits => digits
  | '-' :: digits => digits
  | digits => digits

def isInteger (text : Text) : Bool :=
  withoutSign text ≠ [] && (withoutSign text).all Char.isDigit

/-- Digits with at most one point among them, and at least one digit. -/
def isDecimal (text : Text) : Bool :=
  match text.dropWhile Char.isDigit with
  | [] => text ≠ []
  | '.' :: fraction => text ≠ ['.'] && fraction.all Char.isDigit
  | _ => false

def isMark (c : Char) : Bool := c = 'e' || c = 'E'

/-- A decimal number with an optional exponent. -/
def isScientific (text : Text) : Bool :=
  isDecimal (text.takeWhile fun c => !isMark c) &&
    match text.dropWhile fun c => !isMark c with
    | [] => true
    | _ :: exponent => isInteger exponent

def specialNumbers : List Text :=
  ["nan".toList, "inf".toList, "+inf".toList, "-inf".toList, "infinity".toList,
    "+infinity".toList, "-infinity".toList]

/-- A number as a sample may hold it. -/
def isNumber (text : Text) : Bool :=
  text.map Char.toLower ∈ specialNumbers || isScientific (withoutSign text)

/-! ## Lines -/

def isBlank (c : Char) : Bool := c = ' ' || c = '\t'

def skip (text : Text) : Text := text.dropWhile isBlank

/-- The characters of a label value. -/
def isPlain (c : Char) : Bool := c ≠ '"' && c ≠ '\\'

/-- One label, and what follows it. -/
def label (text : Text) : Option ((Text × Text) × Text) :=
  match skip (text.dropWhile isLabelChar) with
  | '=' :: afterEquals =>
      match skip afterEquals with
      | '"' :: quoted =>
          match quoted.dropWhile isPlain with
          | '"' :: rest =>
              if isLabelName (text.takeWhile isLabelChar) then
                some ((text.takeWhile isLabelChar, quoted.takeWhile isPlain), skip rest)
              else none
          | _ => none
      | _ => none
  | _ => none

/-- The labels up to the closing brace, and what follows it; at most `fuel` of them. -/
def labels : Nat → Text → Option (List (Text × Text) × Text)
  | 0, _ => none
  | fuel + 1, text =>
      match skip text with
      | '\x7d' :: rest => some ([], rest)
      | start =>
          match label start with
          | some (first, ',' :: rest) =>
              (labels fuel rest).map fun more => (first :: more.1, more.2)
          | some (first, '\x7d' :: rest) => some ([first], rest)
          | _ => none

/-- The value of a sample; a timestamp may follow it. -/
def value (text : Text) : Option Text :=
  let token := (skip text).takeWhile fun c => !isBlank c
  match (skip text).dropWhile fun c => !isBlank c with
  | [] => if isNumber token then some token else none
  | rest => if isNumber token && isInteger (skip rest) then some token else none

def sample (line : Text) : Option Sample :=
  let name := line.takeWhile isMetricChar
  if isMetricName name then
    match skip (line.dropWhile isMetricChar) with
    | '\x7b' :: inner =>
        (labels (inner.length + 1) inner).bind fun parsed =>
          (value parsed.2).map fun shown => ⟨name, parsed.1, shown⟩
    | rest => (value rest).map fun shown => ⟨name, [], shown⟩
  else none

def metricTypes : List Text :=
  ["counter".toList, "gauge".toList, "histogram".toList, "summary".toList, "untyped".toList]

def firstWord (text : Text) : Text := (skip text).takeWhile fun c => !isBlank c

def afterWord (text : Text) : Text := (skip text).dropWhile fun c => !isBlank c

/-- What follows a hash sign: a comment, or the help or the type of a metric. -/
def isComment (text : Text) : Bool :=
  if firstWord text = "HELP".toList then isMetricName (firstWord (afterWord text))
  else if firstWord text = "TYPE".toList then
    isMetricName (firstWord (afterWord text)) &&
      skip (afterWord (afterWord text)) ∈ metricTypes
  else true

def parseLine (line : Text) : Option (List Sample) :=
  match skip line with
  | [] => some []
  | '#' :: text => if isComment text then some [] else none
  | start => (sample start).map fun parsed => [parsed]

/-- The samples of a text. -/
def parse (text : Text) : Option (List Sample) :=
  ((text.splitOn '\n').mapM parseLine).map List.flatten

/-! ## Scanning -/

/-- A scan takes what satisfies the predicate and stops at the first character that does
not. -/
theorem span_append {p : Char → Bool} {taken : Text} (rest : Text)
    (all : ∀ c ∈ taken, p c = true) (stop : ∀ c ∈ rest.head?, p c = false) :
    (taken ++ rest).takeWhile p = taken ∧ (taken ++ rest).dropWhile p = rest := by
  induction taken with
  | nil =>
      cases rest with
      | nil => exact ⟨rfl, rfl⟩
      | cons next later => simp [stop next rfl]
  | cons first others ih =>
      obtain ⟨here, later⟩ := List.forall_mem_cons.mp all
      simp [here, ih later]

theorem skip_cons {c : Char} (visible : isBlank c = false) (rest : Text) :
    skip (c :: rest) = c :: rest := by
  simp [skip, visible]

theorem skip_of_head {text : Text} (visible : ∀ c ∈ text.head?, isBlank c = false) :
    skip text = text := by
  cases text with
  | nil => rfl
  | cons c rest => exact skip_cons (visible c rfl) rest

/-! ## Names -/

theorem isLabelChar_of_isLabelName {name : Text} (valid : isLabelName name = true) :
    ∀ c ∈ name, isLabelChar c = true := by
  cases name with
  | nil => cases valid
  | cons first rest =>
      simp only [isLabelName, Bool.and_eq_true] at valid
      exact List.all_eq_true.mp valid.2

/-- What may follow the start of a label name. -/
theorem isLabelName_append {name : Text} (valid : isLabelName name = true) (more : Text) :
    isLabelName (name ++ more) = true ↔ ∀ c ∈ more, isLabelChar c = true := by
  cases name with
  | nil => cases valid
  | cons first rest =>
      simp only [isLabelName, Bool.and_eq_true] at valid
      rw [List.cons_append, isLabelName, Bool.and_eq_true, ← List.cons_append, List.all_append,
        Bool.and_eq_true, List.all_eq_true, List.all_eq_true]
      constructor
      · rintro ⟨_, _, later⟩
        exact later
      · intro later
        exact ⟨valid.1, List.all_eq_true.mp valid.2, later⟩

theorem isMetricChar_of_isMetricName {name : Text} (valid : isMetricName name = true) :
    ∀ c ∈ name, isMetricChar c = true := by
  cases name with
  | nil => cases valid
  | cons first rest =>
      simp only [isMetricName, Bool.and_eq_true] at valid
      exact List.all_eq_true.mp valid.2

/-- A class of characters without the space and the tab has no blanks. -/
theorem isBlank_of_class {p : Char → Bool} (space : p ' ' = false) (tab : p '\t' = false)
    {c : Char} (valid : p c = true) : isBlank c = false := by
  rw [isBlank, Bool.or_eq_false_iff]
  refine ⟨decide_eq_false ?_, decide_eq_false ?_⟩
  · rintro rfl
    rw [space] at valid
    cases valid
  · rintro rfl
    rw [tab] at valid
    cases valid

theorem isBlank_of_isMetricChar {c : Char} (valid : isMetricChar c = true) :
    isBlank c = false :=
  isBlank_of_class (by decide) (by decide) valid

theorem isMetricChar_of_isLabelChar {c : Char} (valid : isLabelChar c = true) :
    isMetricChar c = true := by
  rw [isMetricChar, valid, Bool.true_or]

/-! ## Literals

A literal is a list of characters made into a string; these lemmas look at the list. -/

theorem isMetricName_ofList {chars : Text} (valid : isMetricName chars = true) :
    isMetricName (String.ofList chars).toList = true := by
  rwa [String.toList_ofList]

theorem isLabelName_ofList {chars : Text} (valid : isLabelName chars = true) :
    isLabelName (String.ofList chars).toList = true := by
  rwa [String.toList_ofList]

theorem not_mem_ofList {c : Char} {chars : Text} (absent : c ∉ chars) :
    c ∉ (String.ofList chars).toList := by
  rwa [String.toList_ofList]

/-! ## Numbers -/

/-- The characters that a number may have. -/
def isNumberChar (c : Char) : Bool :=
  c.isDigit || c.toLower ∈ ['.', '+', '-', 'e', 'n', 'a', 'i', 'f', 't', 'y']

theorem mem_withoutSign {text : Text} {c : Char} (member : c ∈ text) :
    c = '+' ∨ c = '-' ∨ c ∈ withoutSign text := by
  unfold withoutSign
  split
  · rcases List.mem_cons.mp member with rfl | later
    · exact .inl rfl
    · exact .inr (.inr later)
  · rcases List.mem_cons.mp member with rfl | later
    · exact .inr (.inl rfl)
    · exact .inr (.inr later)
  · exact .inr (.inr member)

theorem isNumberChar_of_isDigit {c : Char} (digit : c.isDigit = true) :
    isNumberChar c = true := by
  rw [isNumberChar, digit, Bool.true_or]

theorem isNumberChar_of_isInteger {text : Text} (integer : isInteger text = true) :
    ∀ c ∈ text, isNumberChar c = true := by
  simp only [isInteger, Bool.and_eq_true] at integer
  intro c member
  rcases mem_withoutSign member with rfl | rfl | digit
  · decide
  · decide
  · exact isNumberChar_of_isDigit (List.all_eq_true.mp integer.2 c digit)

theorem isNumberChar_of_isDecimal {text : Text} (decimal : isDecimal text = true) :
    ∀ c ∈ text, isNumberChar c = true := by
  intro c member
  rw [← List.takeWhile_append_dropWhile (p := Char.isDigit) (l := text)] at member
  rcases List.mem_append.mp member with digit | later
  · exact isNumberChar_of_isDigit (List.mem_takeWhile_imp digit)
  · unfold isDecimal at decimal
    split at decimal
    · rename_i none
      rw [none] at later
      cases later
    · rename_i fraction pointed
      rw [pointed] at later
      rcases List.mem_cons.mp later with rfl | digit
      · decide
      · simp only [Bool.and_eq_true] at decimal
        exact isNumberChar_of_isDigit (List.all_eq_true.mp decimal.2 c digit)
    · cases decimal

theorem isNumberChar_of_isNumber {text : Text} (number : isNumber text = true) :
    ∀ c ∈ text, isNumberChar c = true := by
  intro c member
  rw [isNumber, Bool.or_eq_true] at number
  rcases number with special | scientific
  · have lower : c.toLower ∈ text.map Char.toLower := List.mem_map_of_mem member
    have letters : (specialNumbers.all fun number => number.all fun letter =>
        letter ∈ ['.', '+', '-', 'e', 'n', 'a', 'i', 'f', 't', 'y']) = true := by
      decide +kernel
    have spelled := List.all_eq_true.mp letters _ (of_decide_eq_true special)
    rw [isNumberChar, List.all_eq_true.mp spelled _ lower, Bool.or_true]
  · rcases mem_withoutSign member with rfl | rfl | later
    · decide
    · decide
    · rw [isScientific, Bool.and_eq_true] at scientific
      rw [← List.takeWhile_append_dropWhile (p := fun c => !isMark c) (l := withoutSign text)]
        at later
      rcases List.mem_append.mp later with mantissa | marked
      · exact isNumberChar_of_isDecimal scientific.1 c mantissa
      · obtain ⟨_, exponent⟩ := scientific
        split at exponent
        · rename_i none
          rw [none] at marked
          cases marked
        · rename_i mark digits found
          have isMarked : isMark mark = true := by
            have stopped := List.head?_dropWhile_not (fun c => !isMark c) (withoutSign text)
            rw [found] at stopped
            simpa using stopped
          rw [found] at marked
          rcases List.mem_cons.mp marked with rfl | digit
          · rcases Bool.or_eq_true _ _ ▸ isMarked with small | large
            · rw [of_decide_eq_true small]
              decide
            · rw [of_decide_eq_true large]
              decide
          · exact isNumberChar_of_isInteger exponent c digit

theorem isWhitespace_of_isNumberChar {c : Char} (valid : isNumberChar c = true) :
    isWhitespace c = false := by
  rw [isNumberChar, Bool.or_eq_true] at valid
  rcases valid with digit | letter
  · exact isWhitespace_eq_false_of_isDigit digit
  · cases upper : c.isUpper with
    | true =>
        have letters : 'A'.val ≤ c.val ∧ c.val ≤ 'Z'.val := of_decide_eq_true upper
        have bounds : 65 ≤ c.toNat ∧ c.toNat ≤ 90 :=
          ⟨UInt32.le_iff_toNat_le.mp letters.1, UInt32.le_iff_toNat_le.mp letters.2⟩
        unfold isWhitespace
        simp only [Bool.or_eq_false_iff, Bool.and_eq_false_iff, decide_eq_false_iff_not,
          beq_eq_false_iff_ne]
        omega
    | false =>
        have same : c.toLower = c := dif_neg (of_decide_eq_false upper)
        have visible : (['.', '+', '-', 'e', 'n', 'a', 'i', 'f', 't', 'y'].all fun letter =>
            !isWhitespace letter) = true := by decide
        have seen := List.all_eq_true.mp visible c (same ▸ of_decide_eq_true letter)
        simpa using seen

theorem isMark_of_isDigit {c : Char} (digit : c.isDigit = true) : isMark c = false := by
  rw [isMark, Bool.or_eq_false_iff]
  refine ⟨decide_eq_false ?_, decide_eq_false ?_⟩
  · rintro rfl
    exact absurd digit (by decide)
  · rintro rfl
    exact absurd digit (by decide)

theorem withoutSign_of_isDigit {digits : Text} (nonempty : digits ≠ [])
    (all : ∀ c ∈ digits, c.isDigit = true) (rest : Text) :
    withoutSign (digits ++ rest) = digits ++ rest := by
  cases digits with
  | nil => exact absurd rfl nonempty
  | cons first others =>
      have digit := all first List.mem_cons_self
      unfold withoutSign
      split
      · rename_i same
        rw [(List.cons.inj same).1] at digit
        exact absurd digit (by decide)
      · rename_i same
        rw [(List.cons.inj same).1] at digit
        exact absurd digit (by decide)
      · rfl

theorem isNumber_of_isScientific {text : Text}
    (scientific : isScientific (withoutSign text) = true) : isNumber text = true := by
  rw [isNumber, scientific, Bool.or_true]

/-- Digits, with or without a fraction behind them, are a number. -/
theorem isScientific_of_digits {whole tail : Text} (nonempty : whole ≠ [])
    (digits : ∀ c ∈ whole, c.isDigit = true)
    (shape : tail = [] ∨ ∃ fraction : Text, tail = '.' :: fraction ∧
      ∀ c ∈ fraction, c.isDigit = true) : isScientific (whole ++ tail) = true := by
  have stop : ∀ c ∈ tail.head?, c.isDigit = false := by
    rcases shape with rfl | ⟨fraction, rfl, _⟩
    · simp
    · simp
  have scanned := span_append tail digits stop
  have unmarked : ∀ c ∈ whole ++ tail, (!isMark c) = true := by
    intro c member
    rcases List.mem_append.mp member with inWhole | inTail
    · simp [isMark_of_isDigit (digits c inWhole)]
    · rcases shape with rfl | ⟨fraction, rfl, fractional⟩
      · cases inTail
      · rcases List.mem_cons.mp inTail with rfl | inFraction
        · decide
        · simp [isMark_of_isDigit (fractional c inFraction)]
  have all := span_append [] unmarked (by simp)
  rw [List.append_nil] at all
  rw [isScientific, all.1, all.2, isDecimal, scanned.2]
  rcases shape with rfl | ⟨fraction, rfl, fractional⟩
  · simpa using nonempty
  · have notPoint : whole ++ '.' :: fraction ≠ ['.'] := by
      cases whole with
      | nil => exact absurd rfl nonempty
      | cons first others => simp
    simpa [notPoint] using fractional

/-! ## Labels -/

/-- A label up to its closing quote. -/
def opened (name value : Text) : Text := name ++ '=' :: '"' :: value

/-- Labels, each with a comma behind it. -/
def listed (before : List (Text × Text)) : Text :=
  before.flatMap fun entry => opened entry.1 entry.2 ++ ['"', ',']

/-- A label that can be written down: its name is one, and its value holds neither a quote nor
a backslash. -/
def Writable (entry : Text × Text) : Prop :=
  isLabelName entry.1 = true ∧ ∀ c ∈ entry.2, isPlain c = true

theorem label_opened {name value : Text} (valid : isLabelName name = true)
    (plain : ∀ c ∈ value, isPlain c = true) (rest : Text) :
    label (opened name value ++ '"' :: rest) = some ((name, value), skip rest) := by
  have scanned := span_append ('=' :: '"' :: (value ++ '"' :: rest))
    (isLabelChar_of_isLabelName valid) (by simp; decide)
  have quoted := span_append ('"' :: rest) plain (by simp; decide)
  have shape : opened name value ++ '"' :: rest =
      name ++ '=' :: '"' :: (value ++ '"' :: rest) := by
    simp [opened]
  rw [shape, label, scanned.1, scanned.2, skip_cons (by decide)]
  simp only
  rw [skip_cons (by decide)]
  simp only [quoted.1, quoted.2, valid, if_true]

/-- A value that is not closed is no label. -/
theorem label_unclosed {name value : Text} (valid : isLabelName name = true)
    (plain : ∀ c ∈ value, isPlain c = true) : label (opened name value) = none := by
  have scanned := span_append ('=' :: '"' :: value)
    (isLabelChar_of_isLabelName valid) (by simp; decide)
  have quoted := span_append [] plain (by simp)
  rw [List.append_nil] at quoted
  rw [opened, label, scanned.1, scanned.2, skip_cons (by decide)]
  simp only
  rw [skip_cons (by decide)]
  simp only [quoted.2]

/-- The loop takes a label where one starts. -/
theorem labels_opened {name value : Text} (valid : isLabelName name = true) (fuel : Nat)
    (rest : Text) :
    labels (fuel + 1) (opened name value ++ rest) =
      match label (opened name value ++ rest) with
      | some (first, ',' :: rest) =>
          (labels fuel rest).map fun more => (first :: more.1, more.2)
      | some (first, '\x7d' :: rest) => some ([first], rest)
      | _ => none := by
  cases name with
  | nil => cases valid
  | cons first others =>
      have isChar := isLabelChar_of_isLabelName valid first List.mem_cons_self
      have visible := isBlank_of_isMetricChar (isMetricChar_of_isLabelChar isChar)
      have notBrace : first ≠ '\x7d' := by
        rintro rfl
        exact absurd isChar (by decide)
      have shape : opened (first :: others) value ++ rest =
          first :: (opened others value ++ rest) := rfl
      rw [shape, labels, skip_cons visible]
      split
      · rename_i same
        exact absurd (List.cons.inj same).1 notBrace
      · rfl

/-- Labels that can be written down are read back in their order. -/
theorem labels_listed {before : List (Text × Text)} {last : Text × Text}
    (writable : ∀ entry ∈ before, Writable entry) (writableLast : Writable last)
    {fuel : Nat} (enough : before.length < fuel) (rest : Text) :
    labels fuel (listed before ++ opened last.1 last.2 ++ '"' :: '\x7d' :: rest) =
      some (before ++ [last], rest) := by
  induction before generalizing fuel with
  | nil =>
      obtain ⟨fuel, rfl⟩ := Nat.exists_eq_add_one.mpr enough
      have read := label_opened writableLast.1 writableLast.2 ('\x7d' :: rest)
      rw [skip_cons (by decide)] at read
      change labels (fuel + 1) (opened last.1 last.2 ++ _) = _
      rw [labels_opened writableLast.1, read]
      rfl
  | cons entry others ih =>
      obtain ⟨here, later⟩ := List.forall_mem_cons.mp writable
      obtain ⟨fuel, rfl⟩ := Nat.exists_eq_add_one.mpr (Nat.lt_of_le_of_lt (Nat.zero_le _) enough)
      have shape : listed (entry :: others) ++ opened last.1 last.2 ++ '"' :: '\x7d' :: rest =
          opened entry.1 entry.2 ++ '"' :: ',' ::
            (listed others ++ opened last.1 last.2 ++ '"' :: '\x7d' :: rest) := by
        simp [listed]
      have read := label_opened here.1 here.2
        (',' :: (listed others ++ opened last.1 last.2 ++ '"' :: '\x7d' :: rest))
      rw [skip_cons (by decide)] at read
      rw [shape, labels_opened here.1, read]
      simp only
      rw [ih later (by simpa using enough)]
      rfl

/-- A list of labels that ends inside a value is none. -/
theorem labels_unclosed {before : List (Text × Text)} {name value : Text}
    (writable : ∀ entry ∈ before, Writable entry) (valid : isLabelName name = true)
    (plain : ∀ c ∈ value, isPlain c = true) (fuel : Nat) :
    labels fuel (listed before ++ opened name value) = none := by
  induction before generalizing fuel with
  | nil =>
      cases fuel with
      | zero => rfl
      | succ fuel =>
          have step := @labels_opened name value valid fuel []
          rw [List.append_nil, label_unclosed valid plain] at step
          exact step
  | cons entry others ih =>
      obtain ⟨here, later⟩ := List.forall_mem_cons.mp writable
      cases fuel with
      | zero => rfl
      | succ fuel =>
          have shape : listed (entry :: others) ++ opened name value =
              opened entry.1 entry.2 ++ '"' :: ',' :: (listed others ++ opened name value) := by
            simp [listed]
          have read := label_opened here.1 here.2 (',' :: (listed others ++ opened name value))
          rw [skip_cons (by decide)] at read
          rw [shape, labels_opened here.1, read]
          simp only
          rw [ih later]
          rfl

theorem isLabelName_of_label {text rest : Text} {entry : Text × Text}
    (read : label text = some (entry, rest)) : isLabelName entry.1 = true := by
  unfold label at read
  split at read
  · split at read
    · split at read
      · split at read
        · rename_i valid
          cases read
          exact valid
        · cases read
      · cases read
    · cases read
  · cases read

/-- Every label that is read has the name of a label. -/
theorem isLabelName_of_labels {fuel : Nat} {text rest : Text} {found : List (Text × Text)}
    (read : labels fuel text = some (found, rest)) :
    ∀ entry ∈ found, isLabelName entry.1 = true := by
  induction fuel generalizing text found with
  | zero => cases read
  | succ fuel ih =>
      rw [labels] at read
      split at read
      · cases read
        exact fun _ none => absurd none List.not_mem_nil
      · split at read
        · rename_i first others labelled
          obtain ⟨more, later, whole⟩ := Option.map_eq_some_iff.mp read
          cases whole
          refine List.forall_mem_cons.mpr ⟨isLabelName_of_label labelled, ?_⟩
          exact ih later
        · rename_i first others labelled
          cases read
          exact List.forall_mem_singleton.mpr (isLabelName_of_label labelled)
        · cases read

/-! ## Samples -/

theorem isBlank_of_isNumberChar {c : Char} (valid : isNumberChar c = true) :
    isBlank c = false :=
  isBlank_of_class (by decide) (by decide) valid

theorem skip_number {token : Text} (number : isNumber token = true) : skip token = token := by
  refine skip_of_head ?_
  intro c first
  exact isBlank_of_isNumberChar
    (isNumberChar_of_isNumber number c (List.mem_of_mem_head? first))

theorem value_of_isNumber {text token : Text} (number : isNumber token = true)
    (skipped : skip text = token) : value text = some token := by
  have visible : ∀ c ∈ token, (!isBlank c) = true := by
    intro c member
    rw [isBlank_of_isNumberChar (isNumberChar_of_isNumber number c member)]
    rfl
  have scanned := span_append [] visible (by simp)
  rw [List.append_nil] at scanned
  rw [value, skipped, scanned.1, scanned.2]
  simp only [number, if_true]

theorem isNumber_of_value {text token : Text} (read : value text = some token) :
    isNumber token = true := by
  unfold value at read
  simp only at read
  split at read
  · split at read
    · rename_i number
      cases read
      exact number
    · cases read
  · split at read
    · rename_i number
      cases read
      exact (Bool.and_eq_true _ _ ▸ number).1
    · cases read

/-- A sample that was read is well formed: its labels have the names of labels and its value is
a number. -/
theorem wellFormed_of_sample {line : Text} {read : Sample} (parsed : sample line = some read) :
    (∀ entry ∈ read.labels, isLabelName entry.1 = true) ∧ isNumber read.value = true := by
  unfold sample at parsed
  simp only at parsed
  split at parsed
  · split at parsed
    · obtain ⟨found, labelled, rest⟩ := Option.bind_eq_some_iff.mp parsed
      obtain ⟨shown, valued, rfl⟩ := Option.map_eq_some_iff.mp rest
      exact ⟨isLabelName_of_labels labelled, isNumber_of_value valued⟩
    · obtain ⟨shown, valued, rfl⟩ := Option.map_eq_some_iff.mp parsed
      exact ⟨fun _ none => absurd none List.not_mem_nil, isNumber_of_value valued⟩
  · cases parsed

theorem sample_unlabelled {name token : Text} (valid : isMetricName name = true)
    (number : isNumber token = true) :
    sample (name ++ ' ' :: token) = some ⟨name, [], token⟩ := by
  have scanned := span_append (' ' :: token) (isMetricChar_of_isMetricName valid)
    (by simp; decide)
  have skipped : skip (' ' :: token) = token := skip_number number
  rw [sample, scanned.1, scanned.2, skipped]
  simp only [valid, if_true]
  split
  · exact absurd (isNumberChar_of_isNumber number '\x7b' List.mem_cons_self) (by decide)
  · rw [value_of_isNumber number (skip_number number)]
    rfl

theorem length_le_listed (before : List (Text × Text)) :
    before.length ≤ (listed before).length := by
  induction before with
  | nil => exact Nat.le_refl _
  | cons entry others ih =>
      have shape : listed (entry :: others) =
          opened entry.1 entry.2 ++ ['"', ','] ++ listed others := rfl
      rw [shape, List.length_append, List.length_append, List.length_cons]
      simp only [List.length_cons, List.length_nil]
      omega

theorem sample_labelled {name token : Text} {before : List (Text × Text)} {last : Text × Text}
    (valid : isMetricName name = true) (writable : ∀ entry ∈ before, Writable entry)
    (writableLast : Writable last) (number : isNumber token = true) :
    sample (name ++ '\x7b' ::
        (listed before ++ opened last.1 last.2 ++ '"' :: '\x7d' :: ' ' :: token)) =
      some ⟨name, before ++ [last], token⟩ := by
  have scanned := span_append
    ('\x7b' :: (listed before ++ opened last.1 last.2 ++ '"' :: '\x7d' :: ' ' :: token))
    (isMetricChar_of_isMetricName valid) (by simp; decide)
  have enough : before.length <
      (listed before ++ opened last.1 last.2 ++ '"' :: '\x7d' :: ' ' :: token).length + 1 := by
    have := length_le_listed before
    rw [List.length_append, List.length_append]
    omega
  rw [sample, scanned.1, scanned.2, skip_cons (by decide)]
  simp only [valid, if_true]
  have shown : value (' ' :: token) = some token :=
    value_of_isNumber number (skip_number number)
  rw [labels_listed writable writableLast enough, Option.bind_some]
  simp only
  rw [shown]
  rfl

theorem sample_unclosed {name labelName part : Text} {before : List (Text × Text)}
    (valid : isMetricName name = true) (writable : ∀ entry ∈ before, Writable entry)
    (validLabel : isLabelName labelName = true) (plain : ∀ c ∈ part, isPlain c = true) :
    sample (name ++ '\x7b' :: (listed before ++ opened labelName part)) = none := by
  have scanned := span_append ('\x7b' :: (listed before ++ opened labelName part))
    (isMetricChar_of_isMetricName valid) (by simp; decide)
  rw [sample, scanned.1, scanned.2, skip_cons (by decide)]
  simp only [valid, if_true]
  rw [labels_unclosed writable validLabel plain]
  rfl

/-! ## Whole texts -/

/-- Lines are read one by one. -/
theorem parse_append (first second : Text) :
    parse (first ++ '\n' :: second) =
      (parse first).bind fun before => (parse second).map fun after => before ++ after := by
  rw [parse, List.splitOn_append_cons_self, List.mapM_append]
  unfold parse
  cases (first.splitOn '\n').mapM parseLine with
  | none => rfl
  | some before =>
      cases (second.splitOn '\n').mapM parseLine with
      | none => rfl
      | some after => simp

theorem parse_line {line : Text} (single : '\n' ∉ line) : parse line = parseLine line := by
  rw [parse, List.splitOn_eq_singleton single, List.mapM_cons]
  cases parseLine line with
  | none => rfl
  | some found => simp

@[simp]
theorem parse_nil : parse [] = some [] := rfl

theorem parseLine_sample {first : Char} (isChar : isMetricChar first = true) (rest : Text) :
    parseLine (first :: rest) = (sample (first :: rest)).map fun parsed => [parsed] := by
  have notHash : first ≠ '#' := by
    rintro rfl
    exact absurd isChar (by decide)
  rw [parseLine, skip_cons (isBlank_of_isMetricChar isChar)]
  split
  · rename_i empty
    cases empty
  · rename_i same
    exact absurd (List.cons.inj same).1 notHash
  · rfl

theorem wellFormed_of_parseLine {line : Text} {found : List Sample}
    (read : parseLine line = some found) :
    ∀ sample ∈ found, (∀ entry ∈ sample.labels, isLabelName entry.1 = true) ∧
      isNumber sample.value = true := by
  unfold parseLine at read
  split at read
  · cases read
    exact fun _ none => absurd none List.not_mem_nil
  · split at read
    · cases read
      exact fun _ none => absurd none List.not_mem_nil
    · cases read
  · obtain ⟨parsed, sampled, rfl⟩ := Option.map_eq_some_iff.mp read
    exact List.forall_mem_singleton.mpr (wellFormed_of_sample sampled)

/-- Everything that is read is well formed. -/
theorem wellFormed_of_parse {text : Text} {found : List Sample} (read : parse text = some found) :
    ∀ sample ∈ found, (∀ entry ∈ sample.labels, isLabelName entry.1 = true) ∧
      isNumber sample.value = true := by
  obtain ⟨groups, each, rfl⟩ := Option.map_eq_some_iff.mp read
  intro sample member
  obtain ⟨group, isGroup, inGroup⟩ := List.mem_flatten.mp member
  obtain ⟨line, _, parsed⟩ := (exists_mem_of_mapM_eq_some each).2 group isGroup
  exact wellFormed_of_parseLine parsed sample inGroup

/-! ## Metadata -/

theorem word_append {word : Text} (nonempty : word ≠ [])
    (visible : ∀ c ∈ word, isBlank c = false) (rest : Text) :
    firstWord (' ' :: (word ++ ' ' :: rest)) = word ∧
      afterWord (' ' :: (word ++ ' ' :: rest)) = ' ' :: rest := by
  have scanned := @span_append (fun c => !isBlank c) word (' ' :: rest)
    (fun c member => by simp [visible c member]) (by simp; decide)
  have skipped : skip (' ' :: (word ++ ' ' :: rest)) = word ++ ' ' :: rest := by
    change skip (word ++ ' ' :: rest) = _
    cases word with
    | nil => exact absurd rfl nonempty
    | cons first others => exact skip_cons (visible first List.mem_cons_self) _
  rw [firstWord, afterWord, skipped]
  exact scanned

theorem visible_of_all {word : Text} (all : (word.all fun c => !isBlank c) = true) :
    ∀ c ∈ word, isBlank c = false := by
  intro c member
  simpa using List.all_eq_true.mp all c member

theorem newline_not_mem_of_isMetricName {name : Text} (valid : isMetricName name = true) :
    '\n' ∉ name := by
  intro member
  exact absurd (isMetricChar_of_isMetricName valid _ member) (by decide)

/-- A line of metadata: a hash sign, a keyword, the name of a metric and more. -/
def metadata (keyword name more : Text) : Text :=
  '#' :: ' ' :: (keyword ++ ' ' :: (name ++ ' ' :: more))

theorem parse_metadata {keyword name more : Text} (single : '\n' ∉ keyword)
    (valid : isMetricName name = true) (singleMore : '\n' ∉ more)
    (accepted : isComment (' ' :: (keyword ++ ' ' :: (name ++ ' ' :: more))) = true) :
    parse (metadata keyword name more) = some [] := by
  have oneLine : '\n' ∉ metadata keyword name more := by
    have := newline_not_mem_of_isMetricName valid
    simp [metadata, single, this, singleMore]
  rw [parse_line oneLine, metadata, parseLine, skip_cons (by decide)]
  simp only [accepted, if_true]

theorem word_name {name : Text} (valid : isMetricName name = true) (more : Text) :
    firstWord (' ' :: (name ++ ' ' :: more)) = name ∧
      afterWord (' ' :: (name ++ ' ' :: more)) = ' ' :: more := by
  refine word_append ?_ ?_ more
  · rintro rfl
    cases valid
  · intro c member
    exact isBlank_of_isMetricChar (isMetricChar_of_isMetricName valid c member)

theorem parse_help {name help : Text} (valid : isMetricName name = true)
    (single : '\n' ∉ help) : parse (metadata "HELP".toList name help) = some [] := by
  have keyword := @word_append "HELP".toList (by decide) (visible_of_all (by decide))
    (name ++ ' ' :: help)
  refine parse_metadata (by decide) valid single ?_
  simp only [isComment, keyword.1, keyword.2, (word_name valid help).1, valid, if_true]

theorem parse_type {name metricType : Text} (valid : isMetricName name = true)
    (known : metricType ∈ metricTypes) :
    parse (metadata "TYPE".toList name metricType) = some [] := by
  have types : ∀ known ∈ metricTypes, '\n' ∉ known ∧ skip (' ' :: known) = known := by
    decide +kernel
  obtain ⟨single, skipped⟩ := types metricType known
  have keyword := @word_append "TYPE".toList (by decide) (visible_of_all (by decide))
    (name ++ ' ' :: metricType)
  have notHelp : "TYPE".toList ≠ "HELP".toList := by decide
  obtain ⟨named, behind⟩ := word_name valid metricType
  refine parse_metadata (by decide) valid single ?_
  simp only [isComment, keyword.1, keyword.2, if_neg notHelp, if_true, named, behind, valid,
    skipped, decide_eq_true known, Bool.and_self]

end Exposition

end ScaphandreFormal.Foundation
