import ScaphandreFormal.Foundation.Float64

/-!
# Rounded numbers

An operation of floating-point numbers is the exact one, followed by a rounding to the numbers
of a format; what lies beyond the largest of them becomes infinite.  Of the format, double
precision being one, it is only used that rounding keeps the order, zero and one, and that its
numbers reach over the integers of 64 bits.
-/

namespace ScaphandreFormal.Foundation

/-- How numbers are rounded, and the largest of them. -/
structure FloatFormat where
  round : ℚ → ℚ
  limit : ℚ
  round_mono : ∀ {p q : ℚ}, p ≤ q → round p ≤ round q
  round_round : ∀ q : ℚ, round (round q) = round q
  round_zero : round 0 = 0
  round_one : round 1 = 1
  round_u64 : ∀ n ≤ u64Max, round n ≤ limit

namespace FloatFormat

variable (format : FloatFormat)

/-- The rounded number is one of the format. -/
def Reaches (q : ℚ) : Prop := -format.limit ≤ format.round q ∧ format.round q ≤ format.limit

instance (q : ℚ) : Decidable (format.Reaches q) := inferInstanceAs (Decidable (_ ∧ _))

def rounded : ExactFloat → ExactFloat
  | .num q => if format.Reaches q then .num (format.round q) else ExactFloat.infinityOf q
  | special => special

theorem rounded_num {q : ℚ} (reaches : format.Reaches q) :
    format.rounded (.num q) = .num (format.round q) := if_pos reaches

theorem rounded_infinityOf (q : ℚ) :
    format.rounded (ExactFloat.infinityOf q) = ExactFloat.infinityOf q := by
  unfold ExactFloat.infinityOf
  split
  · rfl
  · split <;> rfl

theorem rounded_rounded (x : ExactFloat) :
    format.rounded (format.rounded x) = format.rounded x := by
  cases x with
  | num q =>
      by_cases reaches : format.Reaches q
      · have again : format.Reaches (format.round q) := by
          rw [Reaches, format.round_round]
          exact reaches
        rw [format.rounded_num reaches, format.rounded_num again, format.round_round]
      · have infinite : format.rounded (.num q) = ExactFloat.infinityOf q := if_neg reaches
        rw [infinite, rounded_infinityOf]
  | posInf => rfl
  | negInf => rfl
  | nan => rfl

/-- The numbers of the format and the special values. -/
def Number : Type := { x : ExactFloat // format.rounded x = x }

variable {format}

namespace Number

def ofExact (x : ExactFloat) : format.Number := ⟨format.rounded x, format.rounded_rounded x⟩

def value (x : format.Number) : ExactFloat := x.1

theorem min_eq_or (x y : ExactFloat) : ExactFloat.min x y = x ∨ ExactFloat.min x y = y := by
  cases x with
  | num a =>
      cases y with
      | num b => exact (min_choice a b).imp (congrArg _) (congrArg _)
      | posInf => exact Or.inl rfl
      | negInf => exact Or.inr rfl
      | nan => exact Or.inl rfl
  | posInf => cases y <;> first | exact Or.inl rfl | exact Or.inr rfl
  | negInf => cases y <;> exact Or.inl rfl
  | nan => exact Or.inr rfl

/-- The smaller of two numbers is not rounded. -/
def min (x y : format.Number) : format.Number where
  val := ExactFloat.min x.value y.value
  property := by
    rcases min_eq_or x.value y.value with first | second
    · rw [first]
      exact x.2
    · rw [second]
      exact y.2

def ofU64 (n : Nat) : format.Number := ofExact (.num n)

def add (x y : format.Number) : format.Number := ofExact (x.value.add y.value)

def div (x y : format.Number) : format.Number := ofExact (x.value.div y.value)

instance float64 : Float64 format.Number where
  ofU64 := ofU64
  asSecsF64 nanos := add (ofU64 (nanos / 10 ^ 9)) (div (ofU64 (nanos % 10 ^ 9)) (ofU64 (10 ^ 9)))
  add := add
  sub x y := ofExact (x.value.sub y.value)
  mul x y := ofExact (x.value.mul y.value)
  div := div
  min := min
  isZero x := x.value.isZero
  isPositive x := x.value.isPositive
  asU64 x := x.value.asU64
  asU64_le x := ExactFloat.asU64_le x.value

/-- `x.is_finite()`. -/
def IsFinite (x : format.Number) : Prop := ∃ q : ℚ, x.value = .num q

theorem round_of_value {x : format.Number} {q : ℚ} (isValue : x.value = .num q) :
    format.round q = q := by
  have kept : format.rounded (.num q) = .num q := isValue ▸ x.2
  by_cases reaches : format.Reaches q
  · rw [format.rounded_num reaches] at kept
    exact ExactFloat.num.inj kept
  · have infinite : format.rounded (.num q) = ExactFloat.infinityOf q := if_neg reaches
    rw [infinite, ExactFloat.infinityOf] at kept
    split at kept
    · cases kept
    · split at kept <;> cases kept

theorem ofExact_value (x : format.Number) : ofExact x.value = x := Subtype.ext x.2

theorem round_nat_nonneg (n : Nat) : 0 ≤ format.round n := by
  have ordered := format.round_mono (Nat.cast_nonneg n : (0 : ℚ) ≤ n)
  rwa [format.round_zero] at ordered

theorem reaches_u64 {n : Nat} (fits : n ≤ u64Max) : format.Reaches n := by
  have nonneg : 0 ≤ format.round n := round_nat_nonneg n
  have most := format.round_u64 n fits
  exact ⟨(neg_nonpos.mpr (nonneg.trans most)).trans nonneg, most⟩

theorem value_ofU64 {n : Nat} (fits : n ≤ u64Max) :
    (Float64.ofU64 n : format.Number).value = .num (format.round n) :=
  format.rounded_num (reaches_u64 fits)

theorem isFinite_ofU64 {n : Nat} (fits : n ≤ u64Max) :
    (Float64.ofU64 n : format.Number).IsFinite := ⟨_, value_ofU64 fits⟩

/-- A nonnegative number is rounded to a number or to infinity. -/
theorem rounded_of_nonneg {q : ℚ} (nonneg : 0 ≤ q) :
    (∃ r, format.rounded (.num q) = .num r) ∨ format.rounded (.num q) = .posInf := by
  by_cases reaches : format.Reaches q
  · exact Or.inl ⟨_, format.rounded_num reaches⟩
  · have infinite : format.rounded (.num q) = ExactFloat.infinityOf q := if_neg reaches
    have positive : 0 < q := by
      refine lt_of_le_of_ne nonneg ?_
      rintro rfl
      exact reaches (by exact_mod_cast reaches_u64 (Nat.zero_le u64Max))
    rw [infinite]
    exact Or.inr (if_pos positive)

/-- The ratio of two integers, cut at one, is finite. -/
theorem isFinite_min_div {n d : Nat} (fits : n ≤ u64Max) (divisorFits : d ≤ u64Max)
    (positive : 0 < d) :
    (Float64.min (Float64.div (Float64.ofU64 n) (Float64.ofU64 d)) (Float64.ofU64 1) :
      format.Number).IsFinite := by
  have numerator : 0 ≤ format.round n := round_nat_nonneg n
  have divisor : 0 < format.round d := by
    have ordered := format.round_mono (Nat.one_le_cast.mpr positive : (1 : ℚ) ≤ d)
    rw [format.round_one] at ordered
    exact zero_lt_one.trans_le ordered
  have quotient : (Float64.div (Float64.ofU64 n) (Float64.ofU64 d) : format.Number).value =
      format.rounded (.num (format.round n / format.round d)) := by
    change format.rounded (ExactFloat.div (Float64.ofU64 n : format.Number).value
      (Float64.ofU64 d : format.Number).value) = _
    rw [value_ofU64 fits, value_ofU64 divisorFits, ExactFloat.div, if_neg divisor.ne']
  have one : (Float64.ofU64 1 : format.Number).value = .num (format.round 1) := by
    exact_mod_cast value_ofU64 (by decide)
  change ∃ q : ℚ, ExactFloat.min (Float64.div _ _ : format.Number).value _ = .num q
  rw [quotient, one]
  rcases rounded_of_nonneg (div_nonneg numerator divisor.le) with ⟨r, finite⟩ | infinite
  · rw [finite]
    exact ⟨_, rfl⟩
  · rw [infinite]
    exact ⟨_, rfl⟩

end Number

end FloatFormat

end ScaphandreFormal.Foundation
