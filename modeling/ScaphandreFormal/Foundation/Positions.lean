import Mathlib.Data.List.Basic
import Mathlib.Data.List.Nodup
import Mathlib.Data.List.Perm.Subperm

/-!
# Positions in increasing lists of numbers

Where a list of numbers is increasing, a number stands at its own position just
when all smaller ones are in the list too.
-/

namespace ScaphandreFormal.Foundation

/-- An increasing list that starts no lower than `start` and has the next `n` numbers from
there holds them at its first positions. -/
theorem getElem?_of_interval {numbers : List Nat} (increasing : numbers.Pairwise (· < ·))
    {start n : Nat} (least : ∀ number ∈ numbers, start ≤ number)
    (interval : ∀ offset < n, start + offset ∈ numbers) :
    ∀ offset < n, numbers[offset]? = some (start + offset) := by
  induction numbers generalizing start n with
  | nil =>
      intro offset inside
      exact absurd (interval offset inside) List.not_mem_nil
  | cons first rest ih =>
      obtain ⟨below, increasingRest⟩ := List.pairwise_cons.mp increasing
      intro offset inside
      have firstIsStart : first = start := by
        have isLeast := least first List.mem_cons_self
        rcases List.mem_cons.mp (interval 0 (by omega)) with same | later
        · omega
        · have := below _ later
          omega
      subst firstIsStart
      cases offset with
      | zero => rfl
      | succ offset =>
          have next := @ih increasingRest (first + 1) (n - 1) below ?_ offset (by omega)
          · rw [List.getElem?_cons_succ, next, Nat.add_right_comm, Nat.add_assoc]
          · intro further isFurther
            rcases List.mem_cons.mp (interval (further + 1) (by omega)) with same | later
            · omega
            · rwa [Nat.add_right_comm, Nat.add_assoc]

/-- An increasing list that has all numbers below `n` holds each of them at its own
position. -/
theorem getElem?_of_initial {numbers : List Nat} (increasing : numbers.Pairwise (· < ·))
    {n : Nat} (initial : ∀ number < n, number ∈ numbers) :
    ∀ number < n, numbers[number]? = some number := by
  intro number below
  have atStart := @getElem?_of_interval numbers increasing 0 n
    (fun _ _ => Nat.zero_le _) (by simpa using initial) number below
  simpa using atStart

/-- An increasing list whose numbers all stand at their own positions is an initial range. -/
theorem eq_range_of_own_position {numbers : List Nat} (increasing : numbers.Pairwise (· < ·))
    (own : ∀ number ∈ numbers, numbers[number]? = some number) :
    numbers = List.range numbers.length := by
  have nodup : numbers.Nodup := increasing.imp fun less => Nat.ne_of_lt less
  apply List.ext_getElem (by rw [List.length_range])
  intro index inside _
  rw [List.getElem_range]
  obtain ⟨bound, same⟩ := List.getElem?_eq_some_iff.mp
    (own _ (List.getElem_mem inside))
  exact (nodup.getElem_inj_iff).mp same

/-- An increasing list whose numbers are all below its length is an initial range. -/
theorem eq_range_of_below {numbers : List Nat} (increasing : numbers.Pairwise (· < ·))
    (below : ∀ number ∈ numbers, number < numbers.length) :
    numbers = List.range numbers.length := by
  have nodup : numbers.Nodup := increasing.imp fun less => Nat.ne_of_lt less
  have within : numbers ⊆ List.range numbers.length :=
    fun number member => List.mem_range.mpr (below number member)
  have perm : numbers.Perm (List.range numbers.length) :=
    (List.subperm_of_subset nodup within).perm_of_length_le (by simp)
  have initial := getElem?_of_initial increasing
    fun number small => perm.mem_iff.mpr (List.mem_range.mpr small)
  exact eq_range_of_own_position increasing fun number member =>
    initial number (below number member)

end ScaphandreFormal.Foundation
