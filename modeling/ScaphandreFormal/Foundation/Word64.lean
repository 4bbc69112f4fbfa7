import Mathlib.Data.Nat.Basic
import Mathlib.Data.UInt

/-!
# Unsigned 64-bit arithmetic

Counters that are added and subtracted with `+`, `-` and `+=` are `UInt64`
values, whose operations wrap as those of a release build do.  Quantities that
are only parsed, compared and combined by the `saturating_` methods are natural
numbers, clamped where the source clamps them.
-/

namespace ScaphandreFormal.Foundation

/-- `u64::MAX`. -/
def u64Max : Nat := 2 ^ 64 - 1

/-- `a.saturating_add(b)` on `u64` values. -/
def saturatingAdd (a b : Nat) : Nat := min (a + b) u64Max

/-- A sum that stays in range is exact. -/
theorem toNat_add_of_fits {a b : UInt64} (fits : a.toNat + b.toNat < 2 ^ 64) :
    (a + b).toNat = a.toNat + b.toNat := by
  rw [UInt64.toNat_add]
  exact Nat.mod_eq_of_lt fits

/-- Wrapping can only lose value. -/
theorem toNat_add_le (a b : UInt64) : (a + b).toNat ≤ a.toNat + b.toNat := by
  rw [UInt64.toNat_add]
  exact Nat.mod_le _ _

/-- A difference is zero just when its operands agree, wrapped or not. -/
theorem sub_ne_zero_iff (a b : UInt64) : a - b ≠ 0 ↔ a ≠ b := by
  constructor
  · rintro differs rfl
    exact differs (by simp)
  · intro differs vanishes
    apply differs
    have restored : a - b + b = 0 + b := by rw [vanishes]
    simpa using restored

/-- Numbers that fit keep their order as words. -/
theorem ofNat_le_ofNat {a b : Nat} (ordered : a ≤ b) (fits : b < 2 ^ 64) :
    UInt64.ofNat a ≤ UInt64.ofNat b := by
  rw [UInt64.le_iff_toNat_le, UInt64.toNat_ofNat_of_lt' fits,
    UInt64.toNat_ofNat_of_lt' (Nat.lt_of_le_of_lt ordered fits)]
  exact ordered

/-- Their difference is exact. -/
theorem toNat_ofNat_sub {a b : Nat} (ordered : a ≤ b) (fits : b < 2 ^ 64) :
    (UInt64.ofNat b - UInt64.ofNat a).toNat = b - a := by
  rw [UInt64.toNat_sub_of_le _ _ (ofNat_le_ofNat ordered fits), UInt64.toNat_ofNat_of_lt' fits,
    UInt64.toNat_ofNat_of_lt' (Nat.lt_of_le_of_lt ordered fits)]

end ScaphandreFormal.Foundation
