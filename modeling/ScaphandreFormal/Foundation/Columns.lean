import ScaphandreFormal.Foundation.Fallible
import Mathlib.Data.List.Basic

/-!
# Columns of a table

Vectors that are built apart go together when each of them has, at every index, the
entry of the row that one table has there.  Such a vector is a column of the table.  An
entry may be missing for a row; the table has no column then.
-/

namespace ScaphandreFormal.Foundation

variable {Row Value Other Error : Type}

/-- The vector has one entry for each row, the entry at an index being that of the row
there. -/
structure IsColumn (rows : List Row) (entry : Row → Option Value) (vector : List Value) :
    Prop where
  length : vector.length = rows.length
  entries : ∀ (index : Nat) (row : Row), rows[index]? = some row → vector[index]? = entry row

theorem isColumn_iff {rows : List Row} {entry : Row → Option Value} {vector : List Value} :
    IsColumn rows entry vector ↔ rows.map entry = vector.map some := by
  constructor
  · rintro ⟨length, entries⟩
    apply List.ext_getElem?
    intro index
    rw [List.getElem?_map, List.getElem?_map]
    cases atIndex : rows[index]? with
    | none =>
        have outside : vector.length ≤ index := length ▸ List.getElem?_eq_none_iff.mp atIndex
        rw [List.getElem?_eq_none_iff.mpr outside]
        rfl
    | some row =>
        have inside : index < vector.length :=
          length ▸ (List.getElem?_eq_some_iff.mp atIndex).1
        rw [Option.map_some, ← entries index row atIndex, List.getElem?_eq_getElem inside]
        rfl
  · intro columns
    refine ⟨?_, ?_⟩
    · rw [← List.length_map (f := some), ← columns, List.length_map]
    · intro index row atIndex
      have here := congrArg (fun list => list[index]?) columns
      simp only [List.getElem?_map, atIndex, Option.map_some] at here
      obtain ⟨value, isValue, same⟩ := Option.map_eq_some_iff.mp here.symm
      rw [isValue, ← same]

theorem isColumn_map (rows : List Row) (value : Row → Value) :
    IsColumn rows (fun row => some (value row)) (rows.map value) := by
  rw [isColumn_iff, List.map_map]
  rfl

/-- A column over the rows of a map is one over the items that were mapped. -/
theorem isColumn_of_map {items : List Other} {row : Other → Row} {entry : Row → Option Value}
    {vector : List Value} (column : IsColumn (items.map row) entry vector) :
    IsColumn items (fun item => entry (row item)) vector := by
  rw [isColumn_iff] at column ⊢
  rw [← column, List.map_map]
  rfl

namespace IsColumn

variable {rows : List Row} {entry : Row → Option Value} {vector : List Value}

theorem congr (column : IsColumn rows entry vector) {same : Row → Option Value}
    (each : ∀ row ∈ rows, entry row = same row) : IsColumn rows same vector := by
  rw [isColumn_iff] at column ⊢
  rw [← column]
  exact (List.map_congr_left each).symm

theorem map (column : IsColumn rows entry vector) (f : Value → Other) :
    IsColumn rows (fun row => (entry row).map f) (vector.map f) := by
  rw [isColumn_iff] at column ⊢
  have mapped := congrArg (List.map (Option.map f)) column
  rw [List.map_map, List.map_map] at mapped
  rw [List.map_map]
  exact mapped

theorem exists_of_mem (column : IsColumn rows entry vector) {value : Value}
    (member : value ∈ vector) : ∃ row ∈ rows, entry row = some value := by
  have cells := isColumn_iff.mp column
  have cell : some value ∈ rows.map entry := cells ▸ List.mem_map_of_mem member
  exact List.mem_map.mp cell

/-- Two columns combined entry by entry. -/
theorem zipWith {Result : Type} (column : IsColumn rows entry vector)
    {second : Row → Option Other} {others : List Other} (other : IsColumn rows second others)
    (f : Value → Other → Result) :
    IsColumn rows (fun row => (entry row).bind fun value => (second row).map (f value))
      (List.zipWith f vector others) := by
  refine ⟨?_, ?_⟩
  · rw [List.length_zipWith, column.length, other.length, Nat.min_self]
  · intro index row atIndex
    rw [List.getElem?_zipWith, ← column.entries index row atIndex,
      ← other.entries index row atIndex]
    cases vector[index]? with
    | none => rfl
    | some value =>
        cases others[index]? with
        | none => rfl
        | some value => rfl

end IsColumn

/-- A fallible map that yields the entry of every row yields the column. -/
theorem exists_mapM_isColumn {f : Row → Except Error Value} {entry : Row → Option Value}
    {rows : List Row}
    (each : ∀ row ∈ rows, ∃ value, f row = .ok value ∧ entry row = some value) :
    ∃ vector, rows.mapM f = .ok vector ∧ IsColumn rows entry vector := by
  induction rows with
  | nil => exact ⟨[], rfl, isColumn_iff.mpr rfl⟩
  | cons row rest ih =>
      obtain ⟨⟨value, yields, isEntry⟩, later⟩ := List.forall_mem_cons.mp each
      obtain ⟨vector, maps, column⟩ := ih later
      refine ⟨value :: vector, ?_, ?_⟩
      · rw [List.mapM_cons, yields, maps]
        rfl
      · rw [isColumn_iff] at column ⊢
        rw [List.map_cons, List.map_cons, isEntry, column]

end ScaphandreFormal.Foundation
