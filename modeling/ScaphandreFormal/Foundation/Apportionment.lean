import Mathlib.Algebra.Order.BigOperators.Group.List
import Mathlib.Algebra.Order.Field.Basic
import Mathlib.Algebra.BigOperators.Ring.List
import Mathlib.Tactic.Linarith

/-!
# Apportioning weights by shares

Each source of a list has a weight, and a receiver takes of every source the
share that the source's key gives it.  What the receivers take together is what
one receiver with the sum of their shares takes, so that it is bounded by the
whole weight as soon as no source is shared out more than once.
-/

namespace ScaphandreFormal.Foundation

variable {Key Receiver K : Type} [Field K]

/-- The whole weight of the sources. -/
def totalWeight (weights : List (Key × K)) : K :=
  (weights.map Prod.snd).sum

/-- What a receiver with these shares takes of the sources. -/
def apportioned (weights : List (Key × K)) (share : Key → K) : K :=
  (weights.map fun source => source.2 * share source.1).sum

theorem apportioned_cons (source : Key × K) (weights : List (Key × K)) (share : Key → K) :
    apportioned (source :: weights) share =
      source.2 * share source.1 + apportioned weights share :=
  List.sum_cons

theorem totalWeight_cons (source : Key × K) (weights : List (Key × K)) :
    totalWeight (source :: weights) = source.2 + totalWeight weights :=
  List.sum_cons

/-- The order of the sources is irrelevant. -/
theorem apportioned_perm {weights reordered : List (Key × K)} (perm : weights.Perm reordered)
    (share : Key → K) : apportioned weights share = apportioned reordered share :=
  (perm.map _).sum_eq

theorem apportioned_zero (weights : List (Key × K)) :
    apportioned weights (fun _ => 0) = 0 := by
  simp [apportioned]

theorem apportioned_one (weights : List (Key × K)) :
    apportioned weights (fun _ => 1) = totalWeight weights := by
  simp [apportioned, totalWeight]

theorem apportioned_add (weights : List (Key × K)) (share other : Key → K) :
    apportioned weights (fun key => share key + other key) =
      apportioned weights share + apportioned weights other := by
  induction weights with
  | nil => simp [apportioned]
  | cons source rest ih =>
      rw [apportioned_cons, apportioned_cons, apportioned_cons, ih, mul_add,
        add_add_add_comm]

/-- What shares leave of the weights. -/
theorem apportioned_one_sub (weights : List (Key × K)) (share : Key → K) :
    apportioned weights (fun key => 1 - share key) =
      totalWeight weights - apportioned weights share := by
  rw [eq_sub_iff_add_eq, ← apportioned_add]
  simp only [sub_add_cancel, apportioned_one]

theorem apportioned_mul_left (weights : List (Key × K)) (factor : K) (share : Key → K) :
    apportioned weights (fun key => factor * share key) = factor * apportioned weights share := by
  induction weights with
  | nil => simp [apportioned]
  | cons source rest ih =>
      rw [apportioned_cons, apportioned_cons, ih, mul_add, mul_left_comm]

/-- The receivers together take what the sum of their shares takes. -/
theorem sum_apportioned (weights : List (Key × K)) (receivers : List Receiver)
    (share : Receiver → Key → K) :
    (receivers.map fun receiver => apportioned weights (share receiver)).sum =
      apportioned weights fun key => (receivers.map fun receiver => share receiver key).sum := by
  induction receivers with
  | nil => exact (apportioned_zero weights).symm
  | cons receiver rest ih =>
      rw [List.map_cons, List.sum_cons, ih, ← apportioned_add]
      rfl

/-- Parts of one whole add up to the part of the sum. -/
theorem sum_map_div {Item : Type} (count : Item → Nat) (whole : K) (items : List Item) :
    (items.map fun item => (count item : K) / whole).sum =
      ((items.map count).sum : Nat) / whole := by
  induction items with
  | nil => simp
  | cons item rest ih =>
      rw [List.map_cons, List.sum_cons, ih, List.map_cons, List.sum_cons, Nat.cast_add, add_div]

/-! ## Splitting a whole -/

/-- The shares of the items are in the proportion of their weights, and equal where nothing
has a weight. -/
def InProportion {Item : Type} (weight : Item → Nat) (share : Item → K) (items : List Item) :
    Prop :=
  if (items.map weight).sum = 0 then ∀ item ∈ items, ∀ other ∈ items, share item = share other
  else ∃ factor, ∀ item ∈ items, share item = factor * weight item

/-- The part of a whole that goes to an item. -/
def proportionalShare {Item : Type} (whole : K) (weight : Item → Nat) (items : List Item)
    (item : Item) : K :=
  if (items.map weight).sum = 0 then whole / items.length
  else whole * weight item / ((items.map weight).sum : Nat)

theorem sum_map_mul_cast {Item : Type} (factor : K) (weight : Item → Nat) (items : List Item) :
    (items.map fun item => factor * weight item).sum =
      factor * ((items.map weight).sum : Nat) := by
  induction items with
  | nil => simp
  | cons item rest ih =>
      rw [List.map_cons, List.sum_cons, ih, List.map_cons, List.sum_cons, Nat.cast_add, mul_add]

/-- Shares in proportion that make up the whole are the proportional ones. -/
theorem sum_eq_and_inProportion_iff [CharZero K] {Item : Type} {whole : K} {weight : Item → Nat}
    {share : Item → K} {items : List Item} (nonempty : items ≠ []) :
    (items.map share).sum = whole ∧ InProportion weight share items ↔
      ∀ item ∈ items, share item = proportionalShare whole weight items item := by
  have count : (items.length : K) ≠ 0 :=
    Nat.cast_ne_zero.mpr fun short => nonempty (List.length_eq_zero_iff.mp short)
  unfold InProportion proportionalShare
  split
  · constructor
    · rintro ⟨all, equal⟩ item member
      have same : items.map share = items.map fun _ => share item :=
        List.map_congr_left fun other isOther => equal other isOther item member
      rw [same, List.map_const', List.sum_replicate, nsmul_eq_mul] at all
      rw [← all, mul_div_cancel_left₀ _ count]
    · intro shares
      refine ⟨?_, fun item member other isOther => (shares item member).trans
        (shares other isOther).symm⟩
      rw [List.map_congr_left shares, List.map_const', List.sum_replicate, nsmul_eq_mul,
        mul_div_cancel₀ _ count]
  · rename_i weighty
    have total : (((items.map weight).sum : Nat) : K) ≠ 0 := Nat.cast_ne_zero.mpr weighty
    constructor
    · rintro ⟨all, factor, shares⟩ item member
      rw [List.map_congr_left shares, sum_map_mul_cast] at all
      rw [shares item member, ← all, mul_right_comm, mul_div_cancel_right₀ _ total]
    · intro shares
      have factored : ∀ item ∈ items,
          share item = whole / ((items.map weight).sum : Nat) * weight item := by
        intro item member
        rw [shares item member, div_mul_eq_mul_div]
      refine ⟨?_, _, factored⟩
      rw [List.map_congr_left factored, sum_map_mul_cast, div_mul_cancel₀ _ total]


theorem div_eq_mul_div_iff [CharZero K] {whole : K} (nonzero : whole ≠ 0) {count total : Nat}
    (counted : count ≠ 0) (weighty : total ≠ 0) (part : Nat) :
    whole / count = whole * part / total ↔ total = count * part := by
  rw [div_eq_div_iff (Nat.cast_ne_zero.mpr counted) (Nat.cast_ne_zero.mpr weighty), mul_assoc,
    mul_right_inj' nonzero, ← Nat.cast_mul, Nat.cast_inj, Nat.mul_comm part]

/-- Equal parts are the proportional ones just when all weights are equal. -/
theorem equal_eq_proportionalShare_iff [CharZero K] {Item : Type} {whole : K} (nonzero : whole ≠ 0)
    {weight : Item → Nat} {items : List Item} (nonempty : items ≠ []) :
    (∀ item ∈ items, whole / items.length = proportionalShare whole weight items item) ↔
      ∀ item ∈ items, ∀ other ∈ items, weight item = weight other := by
  have counted : items.length ≠ 0 := fun short => nonempty (List.length_eq_zero_iff.mp short)
  unfold proportionalShare
  split
  · rename_i weightless
    have zero : ∀ item ∈ items, weight item = 0 := fun item member =>
      List.sum_eq_zero_iff.mp weightless _ (List.mem_map_of_mem member)
    refine iff_of_true (fun _ _ => rfl) ?_
    intro item member other isOther
    rw [zero item member, zero other isOther]
  · rename_i weighty
    simp only [div_eq_mul_div_iff nonzero counted weighty]
    constructor
    · intro parts item member other isOther
      apply Nat.eq_of_mul_eq_mul_left (Nat.pos_of_ne_zero counted)
      rw [← parts item member, ← parts other isOther]
    · intro equal item member
      have same : items.map weight = items.map fun _ => weight item :=
        List.map_congr_left fun other isOther => equal other isOther item member
      rw [same, List.map_const', List.sum_replicate, nsmul_eq_mul, Nat.cast_id]

variable [LinearOrder K] [IsStrictOrderedRing K]

/-- Sources that are shared out at most once give at most their weight. -/
theorem apportioned_le_totalWeight {weights : List (Key × K)} {share : Key → K}
    (nonneg : ∀ source ∈ weights, 0 ≤ source.2)
    (once : ∀ source ∈ weights, share source.1 ≤ 1) :
    apportioned weights share ≤ totalWeight weights := by
  apply List.sum_le_sum
  intro source member
  exact mul_le_of_le_one_right (nonneg source member) (once source member)

/-- They give all of it exactly when each source with a weight is wholly shared out. -/
theorem apportioned_eq_totalWeight_iff {weights : List (Key × K)} {share : Key → K}
    (nonneg : ∀ source ∈ weights, 0 ≤ source.2)
    (once : ∀ source ∈ weights, share source.1 ≤ 1) :
    apportioned weights share = totalWeight weights ↔
      ∀ source ∈ weights, 0 < source.2 → share source.1 = 1 := by
  induction weights with
  | nil => simp [apportioned, totalWeight]
  | cons source rest ih =>
      obtain ⟨nonnegHere, nonnegRest⟩ := List.forall_mem_cons.mp nonneg
      obtain ⟨onceHere, onceRest⟩ := List.forall_mem_cons.mp once
      have restLe := apportioned_le_totalWeight nonnegRest onceRest
      have hereLe : source.2 * share source.1 ≤ source.2 :=
        mul_le_of_le_one_right nonnegHere onceHere
      rw [apportioned_cons, totalWeight_cons, List.forall_mem_cons, ← ih nonnegRest onceRest]
      constructor
      · intro same
        refine ⟨fun positive => ?_, by linarith⟩
        have whole : source.2 * share source.1 = source.2 * 1 := by linarith
        exact mul_left_cancel₀ (ne_of_gt positive) whole
      · rintro ⟨wholeHere, wholeRest⟩
        rw [wholeRest]
        rcases nonnegHere.eq_or_lt with weightless | positive
        · rw [← weightless, zero_mul]
        · rw [wholeHere positive, mul_one]

end ScaphandreFormal.Foundation
