import Mathlib.Data.List.Induction

/-!
# Maps built by insertions

A map is kept as the list of its entries, one for each key.  What a run of insertions
leaves of a map is stated over the list of insertions: an entry lasts when no later one
has its key.
-/

namespace ScaphandreFormal.Foundation

variable {Key Value : Type}

section Maps

variable [DecidableEq Key]

/-- `map.insert(key, value)`. -/
def insertEntry (entries : List (Key × Value)) (entry : Key × Value) : List (Key × Value) :=
  entries.filter (·.1 ≠ entry.1) ++ [entry]

/-- The map after a run of insertions into an empty one. -/
def insertAll (insertions : List (Key × Value)) : List (Key × Value) :=
  insertions.foldl insertEntry []

theorem mem_insertEntry {entries : List (Key × Value)} {inserted entry : Key × Value} :
    entry ∈ insertEntry entries inserted ↔
      (entry ∈ entries ∧ entry.1 ≠ inserted.1) ∨ entry = inserted := by
  simp [insertEntry]

end Maps

/-- The entry is inserted, and no later insertion has its key. -/
def Lasts (insertions : List (Key × Value)) (entry : Key × Value) : Prop :=
  ∃ before after, insertions = before ++ entry :: after ∧ ∀ later ∈ after, later.1 ≠ entry.1

/-- The property holds of every entry that lasts. -/
def ForallLasting (property : Key × Value → Prop) (insertions : List (Key × Value)) : Prop :=
  ∀ entry, Lasts insertions entry → property entry

theorem lasts_append {first second : List (Key × Value)} {entry : Key × Value} :
    Lasts (first ++ second) entry ↔
      (Lasts first entry ∧ ∀ later ∈ second, later.1 ≠ entry.1) ∨ Lasts second entry := by
  constructor
  · rintro ⟨before, after, whole, none⟩
    rcases List.append_eq_append_iff.mp whole with ⟨middle, rfl, rfl⟩ | ⟨middle, rfl, split⟩
    · exact Or.inr ⟨middle, after, rfl, none⟩
    · cases middle with
      | nil => exact Or.inr ⟨[], after, split.symm, none⟩
      | cons head middle =>
          obtain ⟨rfl, rfl⟩ := List.cons.inj split
          obtain ⟨here, later⟩ := List.forall_mem_append.mp none
          exact Or.inl ⟨⟨before, middle, rfl, here⟩, later⟩
  · rintro (⟨⟨before, after, rfl, here⟩, later⟩ | ⟨before, after, rfl, none⟩)
    · refine ⟨before, after ++ second, by simp, List.forall_mem_append.mpr ⟨here, later⟩⟩
    · exact ⟨first ++ before, after, by simp, none⟩

theorem lasts_singleton {inserted entry : Key × Value} :
    Lasts [inserted] entry ↔ entry = inserted := by
  constructor
  · rintro ⟨before, after, whole, _⟩
    cases before with
    | nil => exact (List.cons.inj whole).1.symm
    | cons head before => simp at whole
  · rintro rfl
    exact ⟨[], [], rfl, List.forall_mem_nil _⟩

/-- Entries with distinct keys last, whatever was inserted before them. -/
theorem lasts_append_of_nodup {before insertions : List (Key × Value)}
    (distinct : (insertions.map Prod.fst).Nodup) {entry : Key × Value}
    (member : entry ∈ insertions) : Lasts (before ++ insertions) entry := by
  obtain ⟨first, after, rfl⟩ := List.append_of_mem member
  refine ⟨before ++ first, after, by simp, ?_⟩
  intro later isLater same
  rw [List.map_append, List.map_cons, List.nodup_append] at distinct
  have fresh := (List.nodup_cons.mp distinct.2.1).1
  exact fresh (List.mem_map.mpr ⟨later, isLater, same⟩)

theorem mem_of_lasts {insertions : List (Key × Value)} {entry : Key × Value}
    (lasting : Lasts insertions entry) : entry ∈ insertions := by
  obtain ⟨before, after, rfl, _⟩ := lasting
  simp

/-- The only insertion under a key lasts. -/
theorem lasts_only_iff {first rest : List (Key × Value)} {key : Key} {inserted value : Value}
    (before : ∀ entry ∈ first, entry.1 ≠ key) (after : ∀ entry ∈ rest, entry.1 ≠ key) :
    Lasts (first ++ (key, inserted) :: rest) (key, value) ↔ value = inserted := by
  constructor
  · intro lasting
    rcases List.mem_append.mp (mem_of_lasts lasting) with earlier | here
    · exact absurd rfl (before _ earlier)
    · rcases List.mem_cons.mp here with same | later
      · exact congrArg Prod.snd same
      · exact absurd rfl (after _ later)
  · rintro rfl
    exact ⟨first, rest, rfl, after⟩

/-- The entries of the map are the insertions that last. -/
theorem mem_insertAll [DecidableEq Key] {insertions : List (Key × Value)} {entry : Key × Value} :
    entry ∈ insertAll insertions ↔ Lasts insertions entry := by
  induction insertions using List.reverseRecOn with
  | nil => simp [insertAll, Lasts]
  | append_singleton before inserted ih =>
      rw [insertAll, List.foldl_append, List.foldl_cons, List.foldl_nil, mem_insertEntry,
        lasts_append, lasts_singleton]
      change (entry ∈ insertAll before ∧ _) ∨ _ ↔ _
      rw [ih, List.forall_mem_singleton, ne_comm]

/-- Something lasts under every key that is inserted. -/
theorem exists_lasts_of_mem [DecidableEq Key] {insertions : List (Key × Value)}
    {entry : Key × Value} (member : entry ∈ insertions) :
    ∃ value, Lasts insertions (entry.1, value) := by
  induction insertions using List.reverseRecOn with
  | nil => cases member
  | append_singleton before inserted ih =>
      by_cases same : inserted.1 = entry.1
      · exact ⟨inserted.2, lasts_append.mpr (Or.inr (lasts_singleton.mpr (by rw [← same])))⟩
      · rcases List.mem_append.mp member with earlier | here
        · obtain ⟨value, lasting⟩ := ih earlier
          exact ⟨value, lasts_append.mpr
            (Or.inl ⟨lasting, List.forall_mem_singleton.mpr same⟩)⟩
        · exact absurd (congrArg Prod.fst (List.mem_singleton.mp here)).symm same

/-- A map has each key once. -/
theorem pairwise_insertAll [DecidableEq Key] (insertions : List (Key × Value)) :
    (insertAll insertions).Pairwise fun entry later => later.1 ≠ entry.1 := by
  induction insertions using List.reverseRecOn with
  | nil => exact List.Pairwise.nil
  | append_singleton before inserted ih =>
      rw [insertAll, List.foldl_append, List.foldl_cons, List.foldl_nil]
      change (insertEntry (insertAll before) inserted).Pairwise _
      refine List.pairwise_append.mpr ⟨ih.filter _, List.pairwise_singleton _ _, ?_⟩
      intro entry kept later isLater
      rw [List.mem_singleton.mp isLater]
      exact (of_decide_eq_true (List.mem_filter.mp kept).2).symm

/-- Insertions into a map replace the entries under their keys. -/
theorem foldl_insertEntry [DecidableEq Key] (entries insertions : List (Key × Value)) :
    insertions.foldl insertEntry entries =
      entries.filter (fun entry => entry.1 ∉ insertions.map Prod.fst) ++ insertAll insertions := by
  induction insertions using List.reverseRecOn with
  | nil =>
      rw [List.foldl_nil, insertAll, List.foldl_nil, List.append_nil, List.filter_eq_self.mpr]
      intro entry _
      exact decide_eq_true List.not_mem_nil
  | append_singleton before inserted ih =>
      rw [insertAll, List.foldl_append, List.foldl_append, ih]
      change insertEntry _ inserted = _ ++ insertEntry (insertAll before) inserted
      rw [insertEntry, insertEntry, List.filter_append, List.filter_filter, List.append_assoc]
      congr 1
      refine List.filter_congr ?_
      intro entry _
      rw [Bool.eq_iff_iff, Bool.and_eq_true, decide_eq_true_iff, decide_eq_true_iff,
        decide_eq_true_iff, List.map_append, List.mem_append, not_or, and_comm]
      exact and_congr_right fun _ => not_congr List.mem_singleton.symm

/-- Insertions whose keys all come again leave nothing in the map. -/
theorem insertAll_append_of_replaced [DecidableEq Key] {first second : List (Key × Value)}
    (replaced : ∀ entry ∈ first, ∃ later ∈ second, later.1 = entry.1) :
    insertAll (first ++ second) = insertAll second := by
  rw [insertAll, List.foldl_append, foldl_insertEntry]
  refine List.append_left_eq_self.mpr (List.filter_eq_nil_iff.mpr ?_)
  intro entry member
  obtain ⟨later, isLater, same⟩ := replaced entry (mem_of_lasts (mem_insertAll.mp member))
  simpa using ⟨later.2, same ▸ isLater⟩

/-- What a map holds under a key is what lasts under it. -/
theorem lookup_insertAll [DecidableEq Key] [BEq Key] [LawfulBEq Key]
    {insertions : List (Key × Value)} {key : Key} {value : Value} :
    (insertAll insertions).lookup key = some value ↔ Lasts insertions (key, value) := by
  rw [List.lookup_eq_some_iff, ← mem_insertAll]
  constructor
  · rintro ⟨before, after, whole, _⟩
    rw [whole]
    exact List.mem_append_right _ List.mem_cons_self
  · intro member
    obtain ⟨before, after, whole⟩ := List.append_of_mem member
    have apart := (List.pairwise_append.mp (whole ▸ pairwise_insertAll insertions)).2.2
    refine ⟨before, after, whole, ?_⟩
    intro entry isBefore
    exact bne_iff_ne.mpr (apart entry isBefore _ List.mem_cons_self)

section ForallLasting

variable {property : Key × Value → Prop}

theorem forallLasting_nil : ForallLasting property [] := by
  rintro entry ⟨before, after, whole, _⟩
  simp at whole

/-- An insertion whose key does not come again lasts. -/
theorem forallLasting_cons {entry : Key × Value} {rest : List (Key × Value)}
    (fresh : ∀ later ∈ rest, later.1 ≠ entry.1) :
    ForallLasting property (entry :: rest) ↔ property entry ∧ ForallLasting property rest := by
  constructor
  · intro all
    refine ⟨all entry ⟨[], rest, rfl, fresh⟩, ?_⟩
    rintro other ⟨before, after, rfl, none⟩
    exact all other ⟨entry :: before, after, rfl, none⟩
  · rintro ⟨here, others⟩ other lasting
    rcases lasts_append.mp (List.singleton_append ▸ lasting) with ⟨single, _⟩ | later
    · rw [lasts_singleton.mp single]
      exact here
    · exact others other later

/-- An insertion that has the property anyway need not last. -/
theorem forallLasting_cons_of_holds {entry : Key × Value} (holds : property entry)
    (rest : List (Key × Value)) :
    ForallLasting property (entry :: rest) ↔ ForallLasting property rest := by
  constructor
  · rintro all other ⟨before, after, rfl, none⟩
    exact all other ⟨entry :: before, after, rfl, none⟩
  · rintro others other lasting
    rcases lasts_append.mp (List.singleton_append ▸ lasting) with ⟨single, _⟩ | later
    · rw [lasts_singleton.mp single]
      exact holds
    · exact others other later

/-- Runs of insertions with different keys do not touch each other. -/
theorem forallLasting_append {first second : List (Key × Value)}
    (apart : ∀ entry ∈ first, ∀ later ∈ second, later.1 ≠ entry.1) :
    ForallLasting property (first ++ second) ↔
      ForallLasting property first ∧ ForallLasting property second := by
  constructor
  · intro all
    refine ⟨fun entry lasting => ?_, fun entry lasting => ?_⟩
    · exact all entry (lasts_append.mpr (Or.inl ⟨lasting, apart entry (mem_of_lasts lasting)⟩))
    · exact all entry (lasts_append.mpr (Or.inr lasting))
  · rintro ⟨here, later⟩ entry lasting
    rcases lasts_append.mp lasting with ⟨first, _⟩ | second
    · exact here entry first
    · exact later entry second

/-- What lasts of a map that is copied is what lasts of its own insertions. -/
theorem forallLasting_insertAll [DecidableEq Key] {insertions : List (Key × Value)} :
    ForallLasting property (insertAll insertions) ↔ ForallLasting property insertions := by
  constructor
  · intro all entry lasting
    obtain ⟨before, after, whole⟩ := List.append_of_mem (mem_insertAll.mpr lasting)
    have later := (List.pairwise_append.mp (whole ▸ pairwise_insertAll insertions)).2.1
    exact all entry ⟨before, after, whole, (List.pairwise_cons.mp later).1⟩
  · intro all entry lasting
    exact all entry (mem_insertAll.mp (mem_of_lasts lasting))

/-- Where no key comes twice, every insertion lasts. -/
theorem forallLasting_of_nodup {insertions : List (Key × Value)}
    (nodup : (insertions.map Prod.fst).Nodup) :
    ForallLasting property insertions ↔ ∀ entry ∈ insertions, property entry := by
  induction insertions with
  | nil => exact iff_of_true forallLasting_nil (List.forall_mem_nil _)
  | cons entry rest ih =>
      obtain ⟨absent, others⟩ := List.nodup_cons.mp nodup
      have fresh : ∀ later ∈ rest, later.1 ≠ entry.1 := by
        intro later isLater same
        exact absent (List.mem_map.mpr ⟨later, isLater, same⟩)
      rw [forallLasting_cons fresh, ih others, List.forall_mem_cons]

end ForallLasting

/-! ## Insertions that may be missing -/

/-- The insertion of a value, if there is one. -/
def optionalEntry (key : Key) (value : Option Value) : List (Key × Value) :=
  (value.map (key, ·)).toList

theorem forall_mem_optionalEntry {property : Key × Value → Prop} {key : Key}
    {value : Option Value} :
    (∀ entry ∈ optionalEntry key value, property entry) ↔
      ∀ found ∈ value, property (key, found) := by
  cases value with
  | none => simp [optionalEntry]
  | some found => simp [optionalEntry]

theorem sublist_optionalEntry (key : Key) (value : Option Value) :
    ((optionalEntry key value).map Prod.fst).Sublist [key] := by
  cases value with
  | none => exact List.nil_sublist _
  | some found => exact List.Sublist.refl _

end ScaphandreFormal.Foundation
