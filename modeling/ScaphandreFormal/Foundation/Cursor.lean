import ScaphandreFormal.Foundation.Registry

/-!
# Searches that consume

An iterator is the list of what is left.  `find` on it takes everything up to the item that is
found, or all of it.  When several keys are sought one after the other on one iterator, a key
is found just where the keys sought so far stand in this order.
-/

namespace ScaphandreFormal.Foundation

variable {Item Key : Type}

/-- `iterator.find(wanted)`, with what is left of the iterator. -/
def seek (wanted : Item → Bool) : List Item → Option Item × List Item
  | [] => (none, [])
  | item :: rest => if wanted item then (some item, rest) else seek wanted rest

theorem seek_of_absent {wanted : Item → Bool} {items : List Item}
    (absent : ∀ item ∈ items, wanted item = false) : seek wanted items = (none, []) := by
  induction items with
  | nil => rfl
  | cons item rest ih =>
      obtain ⟨here, later⟩ := List.forall_mem_cons.mp absent
      rw [seek, if_neg (by rw [here]; exact Bool.false_ne_true), ih later]

theorem seek_append {wanted : Item → Bool} {before : List Item}
    (absent : ∀ item ∈ before, wanted item = false) (rest : List Item) :
    seek wanted (before ++ rest) = seek wanted rest := by
  induction before with
  | nil => rfl
  | cons item before ih =>
      obtain ⟨here, later⟩ := List.forall_mem_cons.mp absent
      rw [List.cons_append, seek, if_neg (by rw [here]; exact Bool.false_ne_true), ih later]

theorem seek_found {wanted : Item → Bool} {before : List Item} {item : Item}
    (absent : ∀ other ∈ before, wanted other = false) (isWanted : wanted item = true)
    (rest : List Item) : seek wanted (before ++ item :: rest) = (some item, rest) := by
  rw [seek_append absent, seek, if_pos isWanted]

/-- Either there is a first item that is wanted, or nothing is left. -/
theorem seek_cases (wanted : Item → Bool) (items : List Item) :
    (∃ before item rest, items = before ++ item :: rest ∧
        (∀ other ∈ before, wanted other = false) ∧ wanted item = true) ∨
      ∀ item ∈ items, wanted item = false := by
  induction items with
  | nil => exact Or.inr (List.forall_mem_nil _)
  | cons item rest ih =>
      cases here : wanted item with
      | true => exact Or.inl ⟨[], item, rest, rfl, List.forall_mem_nil _, here⟩
      | false =>
          rcases ih with ⟨before, found, later, rfl, absent, isWanted⟩ | absent
          · exact Or.inl ⟨item :: before, found, later, rfl,
              List.forall_mem_cons.mpr ⟨here, absent⟩, isWanted⟩
          · exact Or.inr (List.forall_mem_cons.mpr ⟨here, absent⟩)

theorem seek_fst (wanted : Item → Bool) (items : List Item) :
    (seek wanted items).1 = items.find? wanted := by
  induction items with
  | nil => rfl
  | cons item rest ih =>
      rw [seek, List.find?_cons]
      cases wanted item with
      | true => rfl
      | false => exact ih

/-! ## Keys sought in turn -/

theorem cons_sublist_first {before rest wanted : List Key} {first : Key} (absent : first ∉ before) :
    (first :: wanted).Sublist (before ++ first :: rest) ↔ wanted.Sublist rest := by
  constructor
  · intro ordered
    obtain ⟨front, back, whole, inFront, inBack⟩ := List.cons_sublist_iff.mp ordered
    rcases List.append_eq_append_iff.mp whole with ⟨middle, rfl, split⟩ | ⟨middle, rfl, split⟩
    · cases middle with
      | nil =>
          rw [List.append_nil] at inFront
          exact absurd inFront absent
      | cons head middle =>
          obtain ⟨_, rfl⟩ := List.cons.inj split
          exact inBack.trans (List.sublist_append_right _ _)
    · exact absurd (List.mem_append_left _ inFront) absent
  · intro ordered
    exact (ordered.cons_cons first).trans (List.sublist_append_right _ _)

variable [DecidableEq Key] (key : Item → Key)

/-- What is found when the keys are sought one after the other. -/
def seekKeys : List Key → List Item → List (Option Item)
  | [], _ => []
  | wanted :: later, items =>
      (seek (fun item => key item = wanted) items).1 ::
        seekKeys later (seek (fun item => key item = wanted) items).2

variable {key}

theorem find?_of_distinct {before rest : List Item} {item : Item} {wanted : Key}
    (distinct : ((before ++ item :: rest).map key).Nodup) (later : wanted ∈ rest.map key) :
    ((before ++ item :: rest).find? fun other => key other = wanted) =
      rest.find? fun other => key other = wanted := by
  rw [List.map_append, List.map_cons] at distinct
  obtain ⟨_, others, apart⟩ := List.nodup_append.mp distinct
  have notHere : key item ≠ wanted := fun same => (List.nodup_cons.mp others).1 (same ▸ later)
  have notBefore : wanted ∉ before.map key := fun earlier =>
    apart wanted earlier wanted (List.mem_cons_of_mem _ later) rfl
  rw [List.find?_append, find?_eq_none_of_not_mem notBefore, Option.none_or,
    List.find?_cons_of_neg (by simpa using notHere)]

/-- A key is found where the keys up to it stand in the order in which they are sought. -/
theorem seekKeys_getElem? {items : List Item} (distinct : (items.map key).Nodup)
    (before : List Key) (wanted : Key) (after : List Key) :
    (seekKeys key (before ++ wanted :: after) items)[before.length]? =
      some (if (before ++ [wanted]).Sublist (items.map key) then
        items.find? fun item => key item = wanted else none) := by
  induction before generalizing items with
  | nil =>
      simp only [List.nil_append]
      rw [seekKeys, List.length_nil, List.getElem?_cons_zero, seek_fst]
      by_cases known : wanted ∈ items.map key
      · rw [if_pos (List.singleton_sublist.mpr known)]
      · rw [if_neg fun ordered => known (List.singleton_sublist.mp ordered),
          find?_eq_none_of_not_mem known]
  | cons first before ih =>
      simp only [List.cons_append]
      rw [seekKeys, List.length_cons, List.getElem?_cons_succ]
      rcases seek_cases (fun item => key item = first) items with
        ⟨passed, found, rest, rfl, absent, isFirst⟩ | absent
      · have isKey : key found = first := of_decide_eq_true isFirst
        have notPassed : first ∉ passed.map key := by
          intro member
          obtain ⟨other, isPassed, same⟩ := List.mem_map.mp member
          exact of_decide_eq_false (absent other isPassed) same
        have restDistinct : (rest.map key).Nodup := by
          rw [List.map_append, List.map_cons] at distinct
          exact (List.nodup_cons.mp (List.nodup_append.mp distinct).2.1).2
        have ordered_iff : (first :: (before ++ [wanted])).Sublist
            ((passed ++ found :: rest).map key) ↔ (before ++ [wanted]).Sublist (rest.map key) := by
          rw [List.map_append, List.map_cons, isKey]
          exact cons_sublist_first notPassed
        rw [seek_found absent isFirst, ih restDistinct]
        by_cases ordered : (before ++ [wanted]).Sublist (rest.map key)
        · have later : wanted ∈ rest.map key :=
            ordered.subset (List.mem_append_right _ List.mem_cons_self)
          rw [if_pos ordered, if_pos (ordered_iff.mpr ordered), find?_of_distinct distinct later]
        · rw [if_neg ordered, if_neg fun whole => ordered (ordered_iff.mp whole)]
      · have unknown : first ∉ items.map key := by
          intro member
          obtain ⟨other, isItem, same⟩ := List.mem_map.mp member
          exact of_decide_eq_false (absent other isItem) same
        have noneOrdered : ¬ (before ++ [wanted]).Sublist (([] : List Item).map key) := by
          intro ordered
          exact List.append_ne_nil_of_right_ne_nil _ (List.cons_ne_nil _ _)
            (List.sublist_nil.mp ordered)
        have empty : (([] : List Item).map key).Nodup := List.nodup_nil
        rw [seek_of_absent absent, ih empty, if_neg noneOrdered,
          if_neg fun ordered => unknown (ordered.subset List.mem_cons_self)]

end ScaphandreFormal.Foundation
