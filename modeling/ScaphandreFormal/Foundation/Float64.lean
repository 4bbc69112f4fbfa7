import ScaphandreFormal.Foundation.Word64
import Mathlib.Data.Rat.Floor

/-!
# Double precision numbers

What the sensors compute with `f64` is kept apart from how it is rounded: the
data model is generic in a type of numbers with the operations the sensors
use, and `ExactFloat` is the instance without rounding, where division by zero
gives the infinities and the not-a-number value of the standard.
-/

namespace ScaphandreFormal.Foundation

/-- The operations on `f64` values.  Times are nanosecond counts and casts to `u64`
saturate. -/
class Float64 (F : Type) where
  ofU64 : Nat → F
  asSecsF64 : Nat → F
  add : F → F → F
  sub : F → F → F
  mul : F → F → F
  div : F → F → F
  min : F → F → F
  isZero : F → Bool
  isPositive : F → Bool
  asU64 : F → Nat
  asU64_le : ∀ x, asU64 x ≤ u64Max

/-- `iter().sum::<f64>()`. -/
def Float64.sum {F : Type} [Float64 F] (numbers : List F) : F :=
  numbers.foldl Float64.add (Float64.ofU64 0)

/-- Numbers of unlimited precision, with the special values of division by zero. -/
inductive ExactFloat where
  | num (value : ℚ)
  | posInf
  | negInf
  | nan
  deriving DecidableEq

namespace ExactFloat

/-- Infinity with the sign of `q`, which is no number at zero. -/
def infinityOf (q : ℚ) : ExactFloat :=
  if 0 < q then posInf else if q < 0 then negInf else nan

def neg : ExactFloat → ExactFloat
  | num a => num (-a)
  | posInf => negInf
  | negInf => posInf
  | nan => nan

def add : ExactFloat → ExactFloat → ExactFloat
  | num a, num b => num (a + b)
  | num _, posInf | posInf, num _ | posInf, posInf => posInf
  | num _, negInf | negInf, num _ | negInf, negInf => negInf
  | _, _ => nan

def sub (x y : ExactFloat) : ExactFloat := add x (neg y)

def mul : ExactFloat → ExactFloat → ExactFloat
  | num a, num b => num (a * b)
  | num a, posInf | posInf, num a => infinityOf a
  | num a, negInf | negInf, num a => infinityOf (-a)
  | posInf, posInf | negInf, negInf => posInf
  | posInf, negInf | negInf, posInf => negInf
  | _, _ => nan

def div : ExactFloat → ExactFloat → ExactFloat
  | num a, num b => if b = 0 then infinityOf a else num (a / b)
  | num _, posInf | num _, negInf => num 0
  -- The sign of a zero divisor is that of the positive zero.
  | posInf, num b => if b < 0 then negInf else posInf
  | negInf, num b => if b < 0 then posInf else negInf
  | _, _ => nan

/-- `x.min(y)`, which prefers a number over not-a-number. -/
def min : ExactFloat → ExactFloat → ExactFloat
  | num a, num b => num (Min.min a b)
  | nan, y => y
  | x, nan => x
  | posInf, y => y
  | x, posInf => x
  | _, _ => negInf

def isZero : ExactFloat → Bool
  | num a => a = 0
  | _ => false

def isPositive : ExactFloat → Bool
  | num a => 0 < a
  | posInf => true
  | _ => false

/-- The cast `as u64`: toward zero, clamped, and zero for not-a-number. -/
def asU64 : ExactFloat → Nat
  | num a => Min.min a.floor.toNat u64Max
  | posInf => u64Max
  | negInf => 0
  | nan => 0

theorem asU64_le (x : ExactFloat) : asU64 x ≤ u64Max := by
  cases x with
  | num a => exact Nat.min_le_right _ _
  | posInf => exact Nat.le_refl _
  | negInf => exact Nat.zero_le _
  | nan => exact Nat.zero_le _

instance : Float64 ExactFloat where
  ofU64 n := num n
  asSecsF64 nanos := num (nanos / 10 ^ 9)
  add := add
  sub := sub
  mul := mul
  div := div
  min := min
  isZero := isZero
  isPositive := isPositive
  asU64 := asU64
  asU64_le := asU64_le

/-! ## Arithmetic on numbers -/

@[simp]
theorem ofU64_eq (n : Nat) : (Float64.ofU64 n : ExactFloat) = num n := rfl

@[simp]
theorem add_num (a b : ℚ) : Float64.add (num a) (num b) = num (a + b) := rfl

@[simp]
theorem mul_num (a b : ℚ) : Float64.mul (num a) (num b) = num (a * b) := rfl

@[simp]
theorem sub_num (a b : ℚ) : Float64.sub (num a) (num b) = num (a - b) :=
  congrArg num (sub_eq_add_neg a b).symm

@[simp]
theorem isPositive_num (a : ℚ) : Float64.isPositive (num a) = decide (0 < a) := rfl

@[simp]
theorem min_num (a b : ℚ) : Float64.min (num a) (num b) = num (Min.min a b) := rfl

theorem div_num {b : ℚ} (nonzero : b ≠ 0) (a : ℚ) :
    Float64.div (num a) (num b) = num (a / b) :=
  if_neg nonzero

/-- The number, zero for the special values. -/
def number : ExactFloat → ℚ
  | num value => value
  | _ => 0

theorem div_zero (a : ℚ) : Float64.div (num a) (num 0) = infinityOf a := by
  change (if (0 : ℚ) = 0 then infinityOf a else num (a / 0)) = infinityOf a
  rw [if_pos rfl]

theorem infinityOf_ne_num (a q : ℚ) : infinityOf a ≠ num q := by
  unfold infinityOf
  split
  · exact ExactFloat.noConfusion
  · split <;> exact ExactFloat.noConfusion

/-- What is no number stays so in a product. -/
theorem mul_infinityOf_ne_num (x a q : ℚ) :
    Float64.mul (num x) (infinityOf a) ≠ num q := by
  unfold infinityOf
  split
  · exact infinityOf_ne_num x q
  · split
    · exact infinityOf_ne_num (-x) q
    · exact ExactFloat.noConfusion

theorem sum_num {Item : Type} (value : Item → ℚ) (items : List Item) :
    Float64.sum (items.map fun item => num (value item)) = num (items.map value).sum := by
  have fold : ∀ start : ℚ,
      (items.map fun item => num (value item)).foldl Float64.add (num start) =
        num (start + (items.map value).sum) := by
    induction items with
    | nil => simp
    | cons item rest ih =>
        intro start
        rw [List.map_cons, List.foldl_cons, add_num, ih, List.map_cons, List.sum_cons, add_assoc]
  simpa [Float64.sum] using fold 0

end ExactFloat

end ScaphandreFormal.Foundation
