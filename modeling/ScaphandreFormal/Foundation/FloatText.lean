import ScaphandreFormal.Foundation.Decimal
import ScaphandreFormal.Foundation.Float64
import Mathlib.Data.List.TakeWhile
import Mathlib.Tactic.Ring

/-!
# Signed and fractional numbers as text

`parseI64` and `parseF64` follow `str::parse`.  A floating-point text is an optional sign, then
`inf`, `infinity` or `nan` in any case, or digits with at most one point and an optional
exponent.  The number that is read is the one that the text denotes, without rounding.
-/

namespace ScaphandreFormal.Foundation

def i64Max : Nat := 2 ^ 63 - 1

/-- The text after an optional sign, and whether the sign is a minus. -/
def signed : Text → Bool × Text
  | '-' :: rest => (true, rest)
  | '+' :: rest => (false, rest)
  | rest => (false, rest)

/-- `text.parse::<i64>().ok()`. -/
def parseI64 (text : Text) : Option Int :=
  match signed text with
  | (true, digits) => ((parseDigits digits).filter (· ≤ i64Max + 1)).map fun n : Nat => -(n : Int)
  | (false, digits) => ((parseDigits digits).filter (· ≤ i64Max)).map fun n : Nat => (n : Int)

/-- Digits with at most one point among them. -/
def parseMantissa (text : Text) : Option ℚ :=
  let whole := text.takeWhile (· ≠ '.')
  let fraction := (text.dropWhile (· ≠ '.')).drop 1
  (parseDigits (whole ++ fraction)).map fun n : Nat => (n : ℚ) / 10 ^ fraction.length

def parseExponent (text : Text) : Option Int :=
  (parseDigits (signed text).2).map fun n : Nat => if (signed text).1 then -(n : Int) else n

def isExponentMark (c : Char) : Bool := c = 'e' || c = 'E'

/-- A mantissa and an optional exponent. -/
def parseNumber (text : Text) : Option ℚ :=
  match text.dropWhile fun c => !isExponentMark c with
  | [] => parseMantissa text
  | _ :: exponent => do
      let mantissa ← parseMantissa (text.takeWhile fun c => !isExponentMark c)
      let power ← parseExponent exponent
      return mantissa * 10 ^ power

/-- `text.parse::<f64>().ok()`. -/
def parseF64 (text : Text) : Option ExactFloat :=
  let negative := (signed text).1
  let rest := (signed text).2
  let lower := rest.map Char.toLower
  if lower = "inf".toList ∨ lower = "infinity".toList then
    some (if negative then .negInf else .posInf)
  else if lower = "nan".toList then some .nan
  else (parseNumber rest).map fun q => .num (if negative then -q else q)

/-- The sign of a printed number. -/
def minus (negative : Bool) : Text := if negative then ['-'] else []

/-- The text begins with a digit. -/
def DigitFirst (text : Text) : Prop := ∃ c rest, text = c :: rest ∧ c.isDigit = true

theorem digitFirst_toText (n : Nat) : DigitFirst (toText n) := by
  obtain ⟨c, rest, isText⟩ := List.exists_cons_of_ne_nil (toText_ne_nil n)
  exact ⟨c, rest, isText, isDigit_of_mem_toText (isText ▸ List.mem_cons_self)⟩

theorem DigitFirst.append {text : Text} (first : DigitFirst text) (more : Text) :
    DigitFirst (text ++ more) := by
  obtain ⟨c, rest, rfl, digit⟩ := first
  exact ⟨c, rest ++ more, rfl, digit⟩

theorem signed_minus (negative : Bool) {text : Text} (first : DigitFirst text) :
    signed (minus negative ++ text) = (negative, text) := by
  obtain ⟨c, rest, rfl, digit⟩ := first
  cases negative with
  | true => rfl
  | false =>
      have plain : c ≠ '-' ∧ c ≠ '+' := by
        constructor
        · rintro rfl
          cases digit
        · rintro rfl
          cases digit
      unfold signed
      simp [minus, plain.1, plain.2]

/-! ## Integers -/

/-- The integers of the type, with one more below zero. -/
def FitsI64 (negative : Bool) (n : Nat) : Prop := n ≤ if negative then i64Max + 1 else i64Max

instance (negative : Bool) (n : Nat) : Decidable (FitsI64 negative n) :=
  inferInstanceAs (Decidable (n ≤ _))

theorem parseI64_toText (negative : Bool) (n : Nat) :
    parseI64 (minus negative ++ toText n) =
      if FitsI64 negative n then some (if negative then -(n : Int) else n) else none := by
  unfold parseI64 FitsI64
  rw [signed_minus negative (digitFirst_toText n)]
  cases negative with
  | true =>
      simp only [parseDigits_toText, Option.filter_some, decide_eq_true_eq, if_true]
      split <;> rfl
  | false =>
      simp only [parseDigits_toText, Option.filter_some, decide_eq_true_eq, Bool.false_eq_true,
        if_false]
      split <;> rfl

/-! ## Fractions -/

/-- A text of digits and points, the first a digit. -/
structure Plain (text : Text) : Prop where
  first : DigitFirst text
  letters : ∀ c ∈ text, c.isDigit = true ∨ c = '.'

theorem toLower_of_isDigit {c : Char} (digit : c.isDigit = true) : c.toLower = c := by
  have bounds : 48 ≤ c.toNat ∧ c.toNat ≤ 57 := by
    simpa [Char.isDigit, UInt32.le_iff_toNat_le] using digit
  have small : ¬ (c.val ≥ 'A'.val ∧ c.val ≤ 'Z'.val) := by
    intro both
    have lower : 65 ≤ c.toNat := UInt32.le_iff_toNat_le.mp both.1
    omega
  exact dif_neg small

theorem Plain.lower_ne {text : Text} (plain : Plain text) {word : Text}
    (other : ¬ DigitFirst word) : text.map Char.toLower ≠ word := by
  rintro rfl
  obtain ⟨c, rest, rfl, digit⟩ := plain.first
  refine other ⟨c, rest.map Char.toLower, ?_, digit⟩
  rw [List.map_cons, toLower_of_isDigit digit]

theorem Plain.parseNumber {text : Text} (plain : Plain text) :
    Foundation.parseNumber text = parseMantissa text := by
  have noMark : (text.dropWhile fun c => !isExponentMark c) = [] := by
    rw [List.dropWhile_eq_nil_iff]
    intro c member
    rcases plain.letters c member with digit | rfl
    · have noE : c ≠ 'e' := by
        rintro rfl
        cases digit
      have noCapital : c ≠ 'E' := by
        rintro rfl
        cases digit
      simp [isExponentMark, noE, noCapital]
    · rfl
  rw [Foundation.parseNumber, noMark]

theorem Plain.parseF64 {text : Text} (plain : Plain text) (negative : Bool) :
    Foundation.parseF64 (minus negative ++ text) =
      (parseMantissa text).map fun q => .num (if negative then -q else q) := by
  have noInf : text.map Char.toLower ≠ "inf".toList :=
    plain.lower_ne (by rintro ⟨c, rest, same, digit⟩; cases same; cases digit)
  have noInfinity : text.map Char.toLower ≠ "infinity".toList :=
    plain.lower_ne (by rintro ⟨c, rest, same, digit⟩; cases same; cases digit)
  have noNan : text.map Char.toLower ≠ "nan".toList :=
    plain.lower_ne (by rintro ⟨c, rest, same, digit⟩; cases same; cases digit)
  unfold Foundation.parseF64
  rw [signed_minus negative plain.first]
  simp only
  rw [if_neg (not_or.mpr ⟨noInf, noInfinity⟩), if_neg noNan, plain.parseNumber]

/-- The number of the digits after the point. -/
def fractionValue (fraction : List (Fin 10)) : ℚ :=
  fraction.foldr (fun digit rest => ((digit.val : ℚ) + rest) / 10) 0

def fractionText (fraction : List (Fin 10)) : Text :=
  fraction.map fun digit => Nat.digitChar digit.val

theorem isDigit_of_mem_fractionText {fraction : List (Fin 10)} {c : Char}
    (member : c ∈ fractionText fraction) : c.isDigit = true := by
  obtain ⟨digit, _, rfl⟩ := List.mem_map.mp member
  have all : ∀ digit : Fin 10, (Nat.digitChar digit.val).isDigit = true := by decide
  exact all digit

theorem ofDigitChars_fractionText (fraction : List (Fin 10)) (init : Nat) :
    (Nat.ofDigitChars 10 (fractionText fraction) init : ℚ) / 10 ^ (fractionText fraction).length =
      init + fractionValue fraction := by
  induction fraction generalizing init with
  | nil => simp [fractionText, fractionValue]
  | cons digit fraction ih =>
      have step : Nat.ofDigitChars 10 (fractionText (digit :: fraction)) init =
          Nat.ofDigitChars 10 (fractionText fraction) (10 * init + digit.val) :=
        Nat.ofDigitChars_cons_digitChar_of_lt_ten digit.isLt
      have longer : (fractionText (digit :: fraction)).length =
          (fractionText fraction).length + 1 := rfl
      have value : fractionValue (digit :: fraction) =
          ((digit.val : ℚ) + fractionValue fraction) / 10 := rfl
      rw [step, longer, value, pow_succ, ← div_div, ih]
      push_cast
      ring

theorem parseMantissa_point (whole : Nat) (fraction : List (Fin 10)) :
    parseMantissa (toText whole ++ '.' :: fractionText fraction) =
      some (whole + fractionValue fraction) := by
  have noPoint : ∀ c ∈ toText whole, decide (c ≠ '.') = true := by
    intro c member
    refine decide_eq_true ?_
    rintro rfl
    exact absurd (isDigit_of_mem_toText member) (by decide)
  have before : (toText whole ++ '.' :: fractionText fraction).takeWhile (· ≠ '.') =
      toText whole := by
    rw [List.takeWhile_append_of_pos noPoint]
    simp
  have after : ((toText whole ++ '.' :: fractionText fraction).dropWhile (· ≠ '.')).drop 1 =
      fractionText fraction := by
    rw [List.dropWhile_append_of_pos noPoint]
    simp
  have digits : toText whole ++ fractionText fraction ≠ [] ∧
      (toText whole ++ fractionText fraction).all Char.isDigit = true := by
    refine ⟨List.append_ne_nil_of_left_ne_nil (toText_ne_nil whole) _, ?_⟩
    rw [List.all_append, Bool.and_eq_true, List.all_eq_true, List.all_eq_true]
    exact ⟨fun c => isDigit_of_mem_toText, fun c => isDigit_of_mem_fractionText⟩
  have number : Nat.ofDigitChars 10 (toText whole ++ fractionText fraction) 0 =
      Nat.ofDigitChars 10 (fractionText fraction) whole := by
    rw [Nat.ofDigitChars_append, toText, Nat.ofDigitChars_ten_toDigits]
  unfold parseMantissa
  simp only [before, after]
  rw [parseDigits, if_pos digits, number, Option.map_some, ofDigitChars_fractionText]

theorem parseF64_toText (negative : Bool) (n : Nat) :
    parseF64 (minus negative ++ toText n) = some (.num (if negative then -(n : ℚ) else n)) := by
  have plain : Plain (toText n) :=
    ⟨digitFirst_toText n, fun c member => Or.inl (isDigit_of_mem_toText member)⟩
  have noPoint : ∀ c ∈ toText n, decide (c ≠ '.') = true := by
    intro c member
    refine decide_eq_true ?_
    rintro rfl
    exact absurd (isDigit_of_mem_toText member) (by decide)
  have mantissa : parseMantissa (toText n) = some (n : ℚ) := by
    unfold parseMantissa
    rw [List.takeWhile_eq_self_iff.mpr noPoint, List.dropWhile_eq_nil_iff.mpr noPoint]
    simp [parseDigits_toText]
  rw [plain.parseF64, mantissa]
  rfl

theorem parseF64_decimal (negative : Bool) (whole : Nat) (fraction : List (Fin 10)) :
    parseF64 (minus negative ++ (toText whole ++ '.' :: fractionText fraction)) =
      some (.num (if negative then -(whole + fractionValue fraction)
        else whole + fractionValue fraction)) := by
  have plain : Plain (toText whole ++ '.' :: fractionText fraction) := by
    refine ⟨(digitFirst_toText whole).append _, ?_⟩
    intro c member
    rcases List.mem_append.mp member with inWhole | after
    · exact Or.inl (isDigit_of_mem_toText inWhole)
    · rcases List.mem_cons.mp after with point | inFraction
      · exact Or.inr point
      · exact Or.inl (isDigit_of_mem_fractionText inFraction)
  rw [plain.parseF64, parseMantissa_point]
  rfl

end ScaphandreFormal.Foundation
