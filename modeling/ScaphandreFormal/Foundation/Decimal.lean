import ScaphandreFormal.Foundation.Word64

/-!
# Decimal text

Counters travel through sysfs files, records and metrics as decimal text.
`parseU64` follows `str::parse::<u64>`: an optional plus sign, at least one
ASCII digit and nothing else, and a value that fits.
-/

namespace ScaphandreFormal.Foundation

abbrev Text := List Char

/-- Stated once, so that every decision about texts in a list uses the same proof. -/
instance lawfulBEq_text : LawfulBEq Text := inferInstance

/-- `n.to_string()` for an unsigned number. -/
def toText (n : Nat) : Text := Nat.toDigits 10 n

/-- The characters with the Unicode property `White_Space`. -/
def isWhitespace (c : Char) : Bool :=
  let code := c.toNat
  (9 ≤ code && code ≤ 13) || code == 0x20 || code == 0x85 || code == 0xA0 || code == 0x1680 ||
    (0x2000 ≤ code && code ≤ 0x200A) || code == 0x2028 || code == 0x2029 || code == 0x202F ||
    code == 0x205F || code == 0x3000

/-- `text.trim()`. -/
def trim (text : Text) : Text :=
  ((text.dropWhile isWhitespace).reverse.dropWhile isWhitespace).reverse

/-- The digits after an optional plus sign. -/
def unsigned : Text → Text
  | '+' :: digits => digits
  | digits => digits

/-- `text.parse::<u64>().ok()`. -/
def parseU64 (text : Text) : Option Nat :=
  let digits := unsigned text
  if digits ≠ [] ∧ digits.all Char.isDigit then
    let value := Nat.ofDigitChars 10 digits 0
    if value ≤ u64Max then some value else none
  else none

theorem unsigned_of_isDigit {digits : Text} (all : ∀ c ∈ digits, c.isDigit = true) :
    unsigned digits = digits := by
  cases digits with
  | nil => rfl
  | cons first rest =>
      have plain : first ≠ '+' := by
        rintro rfl
        exact absurd (all '+' List.mem_cons_self) (by decide)
      unfold unsigned
      split
      · rename_i same
        cases same
        exact absurd rfl plain
      · rfl

/-- Text written from a `u64` reads back as the same value. -/
@[simp]
theorem parseU64_toText {n : Nat} (fits : n ≤ u64Max) : parseU64 (toText n) = some n := by
  have digits : ∀ c ∈ toText n, c.isDigit = true :=
    fun c member => Nat.isDigit_of_mem_toDigits (by decide) (by decide) member
  have value : Nat.ofDigitChars 10 (toText n) 0 = n := Nat.ofDigitChars_ten_toDigits
  have wellFormed : toText n ≠ [] ∧ (toText n).all Char.isDigit = true :=
    ⟨Nat.toDigits_ne_nil, List.all_eq_true.mpr digits⟩
  unfold parseU64
  simp only [unsigned_of_isDigit digits, value]
  rw [if_pos wellFormed, if_pos fits]

theorem toText_injective {m n : Nat} (same : toText m = toText n) : m = n := by
  have left : Nat.ofDigitChars 10 (toText m) 0 = m := Nat.ofDigitChars_ten_toDigits
  have right : Nat.ofDigitChars 10 (toText n) 0 = n := Nat.ofDigitChars_ten_toDigits
  rw [← left, same, right]

theorem parseU64_le {text : Text} {value : Nat} (parsed : parseU64 text = some value) :
    value ≤ u64Max := by
  unfold parseU64 at parsed
  simp only at parsed
  split at parsed
  · split at parsed
    · rename_i fits
      cases parsed
      exact fits
    · cases parsed
  · cases parsed

/-- `text.parse::<u16>().ok()`. -/
def parseU16 (text : Text) : Option Nat :=
  (parseU64 text).filter fun value => value < 2 ^ 16

theorem parseU16_toText {n : Nat} (fits : n < 2 ^ 16) : parseU16 (toText n) = some n := by
  have fitsWord : n ≤ u64Max := by
    unfold u64Max
    omega
  rw [parseU16, parseU64_toText fitsWord]
  exact if_pos (decide_eq_true fits)

theorem parseU16_eq_none {text : Text} {c : Char} (member : c ∈ text) (noSign : c ≠ '+')
    (noDigit : c.isDigit = false) : parseU16 text = none := by
  have inside : c ∈ unsigned text := by
    unfold unsigned
    split
    · rcases List.mem_cons.mp member with rfl | later
      · exact absurd rfl noSign
      · exact later
    · exact member
  have unfit : ¬ (unsigned text ≠ [] ∧ (unsigned text).all Char.isDigit = true) := by
    rintro ⟨_, every⟩
    rw [List.all_eq_true.mp every c inside] at noDigit
    cases noDigit
  unfold parseU16 parseU64
  simp only [if_neg unfit]
  rfl

/-! ## Wider types

Texts are also parsed as `u128` and `i128`.  They hold sums of `u64` counters
there, which reach the limits of these types only from 2^63 counters on, so the
range check is left out. -/

/-- A text of digits, at least one. -/
def parseDigits (digits : Text) : Option Nat :=
  if digits ≠ [] ∧ digits.all Char.isDigit then some (Nat.ofDigitChars 10 digits 0) else none

/-- `text.parse::<u128>().ok()`. -/
def parseU128 (text : Text) : Option Nat := parseDigits (unsigned text)

/-- `text.parse::<i128>().ok()`. -/
def parseI128 : Text → Option Int
  | '-' :: digits => (parseDigits digits).map fun magnitude : Nat => -(magnitude : Int)
  | text => (parseU128 text).map Int.ofNat

/-- `n.to_string()` for a signed number. -/
def intToText : Int → Text
  | .ofNat n => toText n
  | .negSucc n => '-' :: toText (n + 1)

theorem isDigit_of_mem_toText {n : Nat} {c : Char} (member : c ∈ toText n) : c.isDigit = true :=
  Nat.isDigit_of_mem_toDigits (by decide) (by decide) member

theorem toText_ne_nil (n : Nat) : toText n ≠ [] := Nat.toDigits_ne_nil

theorem parseDigits_toText (n : Nat) : parseDigits (toText n) = some n := by
  have wellFormed : toText n ≠ [] ∧ (toText n).all Char.isDigit = true :=
    ⟨toText_ne_nil n, List.all_eq_true.mpr fun c member => isDigit_of_mem_toText member⟩
  have value : Nat.ofDigitChars 10 (toText n) 0 = n := Nat.ofDigitChars_ten_toDigits
  rw [parseDigits, if_pos wellFormed, value]

theorem parseU128_toText (n : Nat) : parseU128 (toText n) = some n := by
  rw [parseU128, unsigned_of_isDigit fun c member => isDigit_of_mem_toText member,
    parseDigits_toText]

theorem parseI128_toText (n : Nat) : parseI128 (toText n) = some (n : Int) := by
  unfold parseI128
  split
  · rename_i digits isText
    have sign : '-' ∈ toText n := isText ▸ List.mem_cons_self
    exact absurd (isDigit_of_mem_toText sign) (by decide)
  · rw [parseU128_toText]
    rfl

/-- A text that parses as no `i128` parses as no `u128`. -/
theorem parseU128_eq_none {text : Text} (unparsable : parseI128 text = none) :
    parseU128 text = none := by
  unfold parseI128 at unparsable
  split at unparsable
  · rfl
  · exact Option.map_eq_none_iff.mp unparsable

theorem isWhitespace_eq_false_of_isDigit {c : Char} (digit : c.isDigit = true) :
    isWhitespace c = false := by
  have bounds : 48 ≤ c.toNat ∧ c.toNat ≤ 57 := by
    simpa [Char.isDigit, UInt32.le_iff_toNat_le] using digit
  unfold isWhitespace
  simp only [Bool.or_eq_false_iff, Bool.and_eq_false_iff, decide_eq_false_iff_not,
    beq_eq_false_iff_ne]
  omega

theorem dropWhile_isWhitespace {digits : Text} (nonempty : digits ≠ [])
    (all : ∀ c ∈ digits, c.isDigit = true) (rest : Text) :
    (digits ++ rest).dropWhile isWhitespace = digits ++ rest := by
  cases digits with
  | nil => exact absurd rfl nonempty
  | cons first others =>
      rw [List.cons_append, List.dropWhile_cons,
        isWhitespace_eq_false_of_isDigit (all first List.mem_cons_self)]
      rfl

/-- Printed numbers come back from `trim` as they are, without what white space follows. -/
theorem trim_toText_append (n : Nat) {tail : Text} (blank : ∀ c ∈ tail, isWhitespace c = true) :
    trim (toText n ++ tail) = toText n := by
  have digits : ∀ c ∈ toText n, c.isDigit = true := fun c member => isDigit_of_mem_toText member
  have reversed : (tail.reverse ++ (toText n).reverse).dropWhile isWhitespace =
      (toText n).reverse := by
    rw [List.dropWhile_append_of_pos fun c member => blank c (List.mem_reverse.mp member)]
    have kept := dropWhile_isWhitespace (List.reverse_ne_nil_iff.mpr (toText_ne_nil n))
      (fun c member => digits c (List.mem_reverse.mp member)) []
    rwa [List.append_nil] at kept
  rw [trim, dropWhile_isWhitespace (toText_ne_nil n) digits, List.reverse_append, reversed,
    List.reverse_reverse]

@[simp]
theorem trim_toText (n : Nat) : trim (toText n) = toText n := by
  have trimmed := trim_toText_append n
    (List.forall_mem_nil (isWhitespace · = true))
  rwa [List.append_nil] at trimmed

@[simp]
theorem trim_toText_newline (n : Nat) : trim (toText n ++ ['\n']) = toText n := by
  apply trim_toText_append
  intro c member
  rw [List.mem_singleton.mp member]
  decide

theorem dropWhile_of_visible {text : Text} (visible : ∀ c ∈ text, isWhitespace c = false) :
    text.dropWhile isWhitespace = text := by
  cases text with
  | nil => rfl
  | cons first rest =>
      rw [List.dropWhile_cons, visible first List.mem_cons_self]
      rfl

/-- A text without white space is left as it is. -/
theorem trim_of_visible {text : Text} (visible : ∀ c ∈ text, isWhitespace c = false) :
    trim text = text := by
  have reversed : ∀ c ∈ text.reverse, isWhitespace c = false :=
    fun c member => visible c (List.mem_reverse.mp member)
  rw [trim, dropWhile_of_visible visible, dropWhile_of_visible reversed, List.reverse_reverse]

end ScaphandreFormal.Foundation
