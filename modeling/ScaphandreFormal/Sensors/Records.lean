import ScaphandreFormal.Foundation.Decimal
import ScaphandreFormal.Foundation.Float64
import Mathlib.Data.List.Basic

/-!
# Records and their buffers

Measurements are stored oldest first in buffers that a cleaning function keeps
near a memory limit.  The cleaning functions of `sensors/mod.rs` are one family:
they compare the size of the buffer with the limit and remove records from the
old end.
-/

namespace ScaphandreFormal.Sensors

open Foundation

inductive MeasureUnit where
  | numeric
  | joule
  | milliJoule
  | microJoule
  | megaWatt
  | kiloWatt
  | watt
  | milliWatt
  | microWatt
  | percentage
  | bytes
  | kiloBytes
  | megaBytes
  | gigaBytes
  | megaHertz
  | microSeconds
  | cycles
  deriving DecidableEq, Repr

/-- A measurement, its timestamp in nanoseconds since the epoch.  The value is text, or
the number itself where the source prints an `f64` only to parse it back. -/
structure Record (Value : Type) where
  timestamp : Nat
  value : Value
  unit : MeasureUnit
  deriving DecidableEq, Repr

structure MultiValuedRecord (Value : Type) where
  timestamp : Nat
  values : List Value
  units : List MeasureUnit
  deriving DecidableEq, Repr

/-! ## Cleaning -/

/-- `size_of::<Record>()`. -/
def sizeOfRecord : Nat := 48

/-- `size_of::<MultiValuedRecord>()`. -/
def sizeOfMultiValuedRecord : Nat := 64

/-- `buffer_max_kbytes * 1000` in `u16`, which wraps in a release build. -/
def maxBytes (bufferMaxKbytes : Nat) : Nat := bufferMaxKbytes * 1000 % 2 ^ 16

/-- How many records a cleaning function removes from `count` of them: the loop
`for _ in 1..n` makes one pass fewer than the excess has records. -/
def excess (recordSize limit count : Nat) : Nat :=
  let currSize := recordSize * count
  if limit < currSize then
    let sizeDiff := currSize - limit
    if recordSize < sizeDiff then sizeDiff / recordSize - 1 else 0
  else 0

/-- The cleaning family, `remove(0)` at each pass. -/
def removeOldest {Value : Type} (recordSize limit : Nat) (buffer : List Value) : List Value :=
  buffer.drop (excess recordSize limit buffer.length)

theorem excess_le (recordSize limit count : Nat) : excess recordSize limit count ≤ count - 1 := by
  unfold excess
  simp only
  split
  · split
    · rename_i larger
      have whole : (recordSize * count - limit) / recordSize ≤ count := by
        apply Nat.div_le_of_le_mul
        exact Nat.sub_le _ _
      omega
    · exact Nat.zero_le _
  · exact Nat.zero_le _

/-- Cleaning never removes the newest record. -/
theorem getLast?_removeOldest {Value : Type} (recordSize limit : Nat) (buffer : List Value) :
    (removeOldest recordSize limit buffer).getLast? = buffer.getLast? := by
  cases buffer with
  | nil => rfl
  | cons first rest =>
      have kept := excess_le recordSize limit (first :: rest).length
      rw [removeOldest, List.getLast?_drop, if_neg]
      simp only [List.length_cons] at kept ⊢
      omega

theorem isSuffix_removeOldest {Value : Type} (recordSize limit : Nat) (buffer : List Value) :
    removeOldest recordSize limit buffer <:+ buffer :=
  List.drop_suffix _ _

/-! ## The last two records -/

/-- The previous and the last record of a buffer with at least two. -/
def lastTwo {Value : Type} (buffer : List Value) : Option (Value × Value) :=
  match buffer.reverse with
  | last :: previous :: _ => some (previous, last)
  | _ => none

theorem lastTwo_concat {Value : Type} (buffer : List Value) (last : Value) :
    lastTwo (buffer ++ [last]) = buffer.getLast?.map fun previous => (previous, last) := by
  unfold lastTwo
  rw [List.reverse_append, List.reverse_singleton, List.singleton_append,
    ← List.head?_reverse]
  cases buffer.reverse with
  | nil => rfl
  | cons previous older => rfl

theorem lastTwo_eq_some_iff {Value : Type} {buffer : List Value} {previous last : Value} :
    lastTwo buffer = some (previous, last) ↔ ∃ older, buffer = older ++ [previous, last] := by
  constructor
  · intro found
    unfold lastTwo at found
    split at found
    · rename_i b a rest reversed
      cases found
      refine ⟨rest.reverse, ?_⟩
      have forward := congrArg List.reverse reversed
      simpa using forward
    · cases found
  · rintro ⟨older, rfl⟩
    simp [lastTwo]

/-- What is dropped from the old end does not change the last two records that are left. -/
theorem lastTwo_of_suffix {Value : Type} {buffer readings : List Value}
    (isSuffix : buffer <:+ readings) {pair : Value × Value} (found : lastTwo buffer = some pair) :
    lastTwo readings = some pair := by
  obtain ⟨dropped, rfl⟩ := isSuffix
  obtain ⟨previous, last⟩ := pair
  obtain ⟨older, rfl⟩ := lastTwo_eq_some_iff.mp found
  exact lastTwo_eq_some_iff.mpr ⟨dropped ++ older, by simp⟩

/-- Two records stay the last two as long as they are not dropped. -/
theorem lastTwo_drop {Value : Type} (buffer : List Value) {count : Nat}
    (small : count ≤ buffer.length - 2) : lastTwo (buffer.drop count) = lastTwo buffer := by
  cases pair : lastTwo buffer with
  | some records =>
      obtain ⟨previous, last⟩ := records
      obtain ⟨older, rfl⟩ := lastTwo_eq_some_iff.mp pair
      have inside : count ≤ older.length := by
        rw [List.length_append] at small
        exact small
      rw [List.drop_append_of_le_length inside]
      exact lastTwo_eq_some_iff.mpr ⟨_, rfl⟩
  | none =>
      cases dropped : lastTwo (buffer.drop count) with
      | none => rfl
      | some records =>
          have again := lastTwo_of_suffix (List.drop_suffix count buffer) dropped
          rw [pair] at again
          cases again

end ScaphandreFormal.Sensors
