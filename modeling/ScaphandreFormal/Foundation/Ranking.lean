import Mathlib.Data.List.Sort
import Mathlib.Order.Basic

/-!
# The best of a list

Items are ranked by a number.  The best `k` of a list are the first `k` of its
stable sort by descending rank.  They can be found in one pass that keeps only
the best so far: an item that comes late is placed behind the items of its rank,
so that what was cut off before stays cut off.
-/

namespace ScaphandreFormal.Foundation

variable {Item K : Type} [LinearOrder K] (rank : Item → K)

/-- The stable sort by descending rank. -/
def sortByRank (items : List Item) : List Item :=
  items.insertionSort fun a b => rank b ≤ rank a

def best (k : Nat) (items : List Item) : List Item :=
  (sortByRank rank items).take k

/-- The position of a late item in a sorted list: behind all items of its rank. -/
def place (late : Item) : List Item → List Item
  | [] => [late]
  | item :: rest =>
      if rank late ≤ rank item then item :: place late rest else late :: item :: rest

instance total_rank : Std.Total fun a b : Item => rank b ≤ rank a :=
  ⟨fun a b => le_total (rank b) (rank a)⟩

instance isTrans_rank : IsTrans Item fun a b => rank b ≤ rank a :=
  ⟨fun _ _ _ first second => second.trans first⟩

theorem orderedInsert_place (early late : Item) (items : List Item) :
    (place rank late items).orderedInsert (fun a b => rank b ≤ rank a) early =
      place rank late (items.orderedInsert (fun a b => rank b ≤ rank a) early) := by
  induction items with
  | nil =>
      simp only [place, List.orderedInsert_cons, List.orderedInsert_nil]
  | cons item rest ih =>
      rcases le_or_gt (rank late) (rank item) with behind | ahead
      · rw [place, if_pos behind, List.orderedInsert_cons, List.orderedInsert_cons]
        split
        · rename_i first
          rw [place, if_pos (behind.trans first), place, if_pos behind]
        · rw [ih, place, if_pos behind]
      · rw [place, if_neg ahead.not_ge, List.orderedInsert_cons, List.orderedInsert_cons]
        by_cases first : rank item ≤ rank early
        · simp only [if_pos first, place, if_neg ahead.not_ge]
        · have last : ¬ rank late ≤ rank early := fun before => first (ahead.le.trans before)
          simp only [if_neg first, if_neg last, place, if_neg ahead.not_ge]

theorem sortByRank_concat (items : List Item) (late : Item) :
    sortByRank rank (items ++ [late]) = place rank late (sortByRank rank items) := by
  induction items with
  | nil => rfl
  | cons item rest ih =>
      rw [sortByRank] at ih ⊢
      rw [List.cons_append, List.insertionSort_cons, ih, orderedInsert_place]
      rfl

theorem take_place (k : Nat) (late : Item) (items : List Item) :
    (place rank late items).take k = (place rank late (items.take k)).take k := by
  induction items generalizing k with
  | nil => simp
  | cons item rest ih =>
      cases k with
      | zero => rfl
      | succ k =>
          rw [List.take_succ_cons, place, place]
          split
          · rw [List.take_succ_cons, List.take_succ_cons, ih]
          · have cut : (item :: rest).take k = ((item :: rest).take (k + 1)).take k := by
              rw [List.take_take, Nat.min_eq_left (Nat.le_succ k)]
            rw [List.take_succ_cons, List.take_succ_cons, cut, List.take_succ_cons]

theorem place_eq_concat {late : Item} {items : List Item}
    (lowest : ∀ item ∈ items, rank late ≤ rank item) :
    place rank late items = items ++ [late] := by
  induction items with
  | nil => rfl
  | cons item rest ih =>
      obtain ⟨here, later⟩ := List.forall_mem_cons.mp lowest
      rw [place, if_pos here, ih later]
      rfl

theorem pairwise_best (k : Nat) (items : List Item) :
    (best rank k items).Pairwise fun a b => rank b ≤ rank a :=
  (List.pairwise_insertionSort _ _).sublist (List.take_sublist _ _)

theorem length_best (k : Nat) (items : List Item) :
    (best rank k items).length = min k items.length := by
  rw [best, List.length_take, sortByRank, List.length_insertionSort]

/-- What was cut off before stays cut off. -/
theorem best_concat (k : Nat) (items : List Item) (late : Item) :
    best rank k (items ++ [late]) = best rank k (best rank k items ++ [late]) := by
  have sorted : sortByRank rank (best rank k items) = best rank k items :=
    (pairwise_best rank k items).insertionSort_eq
  have again : best rank k (best rank k items ++ [late]) =
      (place rank late (best rank k items)).take k := by
    rw [best, sortByRank_concat, sorted]
  rw [again, best, sortByRank_concat, take_place]
  rfl

/-- An item that no kept one is below changes nothing once enough are kept. -/
theorem best_concat_of_le {k : Nat} {items : List Item} {late : Item} (full : k ≤ items.length)
    (lowest : ∀ item ∈ best rank k items, rank late ≤ rank item) :
    best rank k (items ++ [late]) = best rank k items := by
  have count : (best rank k items).length = k := by
    rw [length_best, Nat.min_eq_left full]
  rw [best, sortByRank_concat, take_place]
  change (place rank late (best rank k items)).take k = _
  rw [place_eq_concat rank lowest, List.take_append_of_le_length count.ge, List.take_of_length_le
    count.le]

/-- The result consists of `k` of the candidates, or of all, sorted by descending rank, and
none of those left out ranks above one of it. -/
structure IsBest (k : Nat) (candidates result : List Item) : Prop where
  length : result.length = min k candidates.length
  sorted : result.Pairwise fun a b => rank b ≤ rank a
  leftOut : ∃ rest, (result ++ rest).Perm candidates ∧
    ∀ item ∈ result, ∀ other ∈ rest, rank other ≤ rank item

theorem isBest_best (k : Nat) (items : List Item) : IsBest rank k items (best rank k items) where
  length := length_best rank k items
  sorted := pairwise_best rank k items
  leftOut := by
    refine ⟨(sortByRank rank items).drop k, ?_, ?_⟩
    · rw [best, List.take_append_drop]
      exact List.perm_insertionSort _ _
    · have sorted : (sortByRank rank items).Pairwise fun a b => rank b ≤ rank a :=
        List.pairwise_insertionSort _ _
      rw [← List.take_append_drop k (sortByRank rank items), List.pairwise_append] at sorted
      exact sorted.2.2

/-- What is the best of the candidates is not the best of them and a higher one. -/
theorem not_isBest_concat {k : Nat} {candidates result : List Item}
    (isBest : IsBest rank k candidates result) {late item : Item} (kept : item ∈ result)
    (higher : rank item < rank late) : ¬ IsBest rank k (candidates ++ [late]) result := by
  intro still
  obtain ⟨rest, perm, _⟩ := isBest.leftOut
  obtain ⟨more, permMore, below⟩ := still.leftOut
  have moved : (result ++ more).Perm (result ++ (rest ++ [late])) := by
    rw [← List.append_assoc]
    exact permMore.trans (perm.append_right [late]).symm
  have isLeft : late ∈ more :=
    ((List.perm_append_left_iff result).mp moved).mem_iff.mpr (by simp)
  exact absurd (below item kept late isLeft) (not_le.mpr higher)

end ScaphandreFormal.Foundation
