import ScaphandreFormal.Foundation.Fallible
import Mathlib.Data.List.Induction
import Mathlib.Data.List.Nodup
import Mathlib.Data.List.ReduceOption

/-!
# Registries

A registry is a list of items that takes an item only when no item has its key.  What a run
of requests leaves is found by key as in the list of the requests: the first one wins.  Where
items are handed to registered keys, nothing is lost and nothing is given twice.
-/

namespace ScaphandreFormal.Foundation

variable {Item Key : Type} [DecidableEq Key] (key : Item → Key)

/-- Takes the item if its key is new. -/
def register (items : List Item) (item : Item) : List Item :=
  if items.any fun other => key other = key item then items else items ++ [item]

/-- The registry after a run of requests. -/
def registerAll (requests : List Item) : List Item := requests.foldl (register key) []

variable {key}

theorem any_key_iff {items : List Item} {wanted : Key} :
    (items.any fun item => key item = wanted) = true ↔ wanted ∈ items.map key := by
  simp only [List.any_eq_true, decide_eq_true_eq, List.mem_map]

theorem register_of_mem {items : List Item} {item : Item} (known : key item ∈ items.map key) :
    register key items item = items :=
  if_pos (any_key_iff.mpr known)

theorem register_of_not_mem {items : List Item} {item : Item}
    (fresh : key item ∉ items.map key) : register key items item = items ++ [item] :=
  if_neg fun found => fresh (any_key_iff.mp found)

theorem mem_register {items : List Item} {item other : Item} :
    other ∈ register key items item ↔
      other ∈ items ∨ other = item ∧ key item ∉ items.map key := by
  by_cases known : key item ∈ items.map key
  · rw [register_of_mem known]
    exact (or_iff_left fun same => same.2 known).symm
  · rw [register_of_not_mem known, List.mem_append, List.mem_singleton, and_iff_left known]

theorem mem_keys_register {items : List Item} {item : Item} {wanted : Key} :
    wanted ∈ (register key items item).map key ↔ wanted ∈ items.map key ∨ wanted = key item := by
  by_cases known : key item ∈ items.map key
  · rw [register_of_mem known]
    exact (or_iff_left_of_imp fun same => same ▸ known).symm
  · rw [register_of_not_mem known, List.map_append, List.map_singleton, List.mem_append,
      List.mem_singleton]

theorem registerAll_concat (requests : List Item) (item : Item) :
    registerAll key (requests ++ [item]) = register key (registerAll key requests) item := by
  rw [registerAll, List.foldl_append]
  rfl

theorem nodup_register {items : List Item} (distinct : (items.map key).Nodup) (item : Item) :
    ((register key items item).map key).Nodup := by
  by_cases known : key item ∈ items.map key
  · rwa [register_of_mem known]
  · rw [register_of_not_mem known, List.map_append, List.map_singleton]
    exact List.nodup_append.mpr ⟨distinct, List.nodup_singleton _, by
      intro found isFound other isOther same
      rw [List.mem_singleton.mp isOther] at same
      exact known (same ▸ isFound)⟩

theorem nodup_registerAll (requests : List Item) :
    ((registerAll key requests).map key).Nodup := by
  induction requests using List.reverseRecOn with
  | nil => exact List.nodup_nil
  | append_singleton before item ih =>
      rw [registerAll_concat]
      exact nodup_register ih item

theorem find?_eq_none_of_not_mem {items : List Item} {wanted : Key}
    (absent : wanted ∉ items.map key) : (items.find? fun item => key item = wanted) = none := by
  rw [List.find?_eq_none]
  intro item member same
  exact absent (List.mem_map.mpr ⟨item, member, of_decide_eq_true same⟩)

/-- With distinct keys an item is found by its key. -/
theorem find?_of_mem {items : List Item} (distinct : (items.map key).Nodup) {item : Item}
    (member : item ∈ items) : (items.find? fun other => key other = key item) = some item := by
  induction items with
  | nil => cases member
  | cons first rest ih =>
      obtain ⟨absent, others⟩ := List.nodup_cons.mp distinct
      rcases List.mem_cons.mp member with rfl | later
      · exact List.find?_cons_of_pos (decide_eq_true rfl)
      · have other : key first ≠ key item := fun same =>
          absent (same ▸ List.mem_map_of_mem later)
        rw [List.find?_cons_of_neg (by simpa using other), ih others later]

/-- An item that is turned away is not found behind the others either. -/
theorem find?_register (items : List Item) (item : Item) (wanted : Key) :
    (register key items item).find? (fun other => key other = wanted) =
      (items ++ [item]).find? fun other => key other = wanted := by
  by_cases known : key item ∈ items.map key
  · rw [register_of_mem known, List.find?_append]
    by_cases same : key item = wanted
    · obtain ⟨other, member, isKey⟩ := List.mem_map.mp known
      have found : (items.find? fun other => key other = wanted).isSome :=
        List.find?_isSome.mpr ⟨other, member, decide_eq_true (isKey.trans same)⟩
      obtain ⟨first, isFirst⟩ := Option.isSome_iff_exists.mp found
      rw [isFirst, Option.some_or]
    · rw [List.find?_cons_of_neg (by simpa using same), List.find?_nil, Option.or_none]
  · rw [register_of_not_mem known]

/-- The first request wins. -/
theorem find?_registerAll (requests : List Item) (wanted : Key) :
    (registerAll key requests).find? (fun item => key item = wanted) =
      requests.find? fun item => key item = wanted := by
  induction requests using List.reverseRecOn with
  | nil => rfl
  | append_singleton before item ih =>
      rw [registerAll_concat, find?_register, List.find?_append, ih, ← List.find?_append]

theorem mem_of_mem_registerAll {requests : List Item} {item : Item}
    (member : item ∈ registerAll key requests) : item ∈ requests := by
  induction requests using List.reverseRecOn with
  | nil => exact member
  | append_singleton before last ih =>
      rw [registerAll_concat, mem_register] at member
      rw [List.mem_append, List.mem_singleton]
      exact member.imp ih And.left

/-- Later requests add to what is registered. -/
theorem prefix_registerAll (requests more : List Item) :
    registerAll key requests <+: registerAll key (requests ++ more) := by
  induction more using List.reverseRecOn with
  | nil => exact (List.append_nil requests).symm ▸ List.prefix_rfl
  | append_singleton before last ih =>
      rw [← List.append_assoc, registerAll_concat]
      refine ih.trans ?_
      by_cases known : key last ∈ (registerAll key (requests ++ before)).map key
      · exact (register_of_mem known).symm ▸ List.prefix_rfl
      · rw [register_of_not_mem known]
        exact List.prefix_append _ _

theorem mem_map_iff_find? {items : List Item} {wanted : Key} :
    wanted ∈ items.map key ↔ (items.find? fun item => key item = wanted).isSome = true := by
  rw [List.find?_isSome, List.mem_map]
  simp only [decide_eq_true_eq]

theorem mem_keys_registerAll {requests : List Item} {wanted : Key} :
    wanted ∈ (registerAll key requests).map key ↔ wanted ∈ requests.map key := by
  rw [mem_map_iff_find?, find?_registerAll, ← mem_map_iff_find?]

/-- A registry does not look at more than the keys. -/
theorem map_register {f : Item → Item} (kept : ∀ item, key (f item) = key item)
    (items : List Item) (item : Item) :
    (register key items item).map f = register key (items.map f) (f item) := by
  have keys : (items.map f).map key = items.map key := by
    rw [List.map_map]
    exact List.map_congr_left fun item _ => kept item
  by_cases known : key item ∈ items.map key
  · rw [register_of_mem known, register_of_mem (by rwa [keys, kept])]
  · rw [register_of_not_mem known, register_of_not_mem (by rwa [keys, kept]), List.map_append,
      List.map_singleton]

/-- With distinct keys, what belongs to the key of an item belongs to the item. -/
theorem flatMap_of_key {Other : Type} (f : Item → List Other) {items : List Item}
    (distinct : (items.map key).Nodup) {item : Item} (member : item ∈ items) :
    (items.flatMap fun other => if key other = key item then f other else []) = f item := by
  induction items with
  | nil => cases member
  | cons first rest ih =>
      obtain ⟨absent, others⟩ := List.nodup_cons.mp distinct
      rw [List.flatMap_cons]
      rcases List.mem_cons.mp member with rfl | later
      · have empty : (rest.flatMap fun other => if key other = key item then f other else []) =
            [] := by
          rw [List.flatMap_eq_nil_iff]
          intro other isRest
          exact if_neg fun same => absent (List.mem_map.mpr ⟨other, isRest, same⟩)
        rw [if_pos rfl, empty, List.append_nil]
      · have other : key first ≠ key item := fun same => absent (same ▸ List.mem_map_of_mem later)
        rw [if_neg other, List.nil_append, ih others later]

/-- With distinct keys, an answer that only one key has is given once. -/
theorem reduceOption_of_key {Value : Type} {related : Item → Option Value → Prop}
    {describes : Value → Prop} {items : List Item} {values : List (Option Value)} {wanted : Key}
    (pairs : List.Forall₂ related items values) (distinct : (items.map key).Nodup)
    (known : wanted ∈ items.map key)
    (here : ∀ item value, related item value → key item = wanted →
      ∃ found, value = some found ∧ describes found)
    (elsewhere : ∀ item value, related item value → key item ≠ wanted → value = none) :
    ∃ found, values.reduceOption = [found] ∧ describes found := by
  induction pairs with
  | nil => cases known
  | @cons item value rest values pair pairs ih =>
      obtain ⟨absent, others⟩ := List.nodup_cons.mp distinct
      by_cases same : key item = wanted
      · obtain ⟨found, rfl, described⟩ := here item value pair same
        have empty : values.reduceOption = [] := by
          rw [List.reduceOption, List.filterMap_eq_nil_iff]
          intro value isValue
          obtain ⟨other, isOther, related⟩ := (exists_mem_of_forall₂ pairs).2 value isValue
          exact elsewhere other value related fun equal =>
            absent (List.mem_map.mpr ⟨other, isOther, equal.trans same.symm⟩)
        refine ⟨found, ?_, described⟩
        rw [List.reduceOption_cons_of_some, empty]
      · obtain rfl := elsewhere item value pair same
        rw [List.reduceOption_cons_of_none]
        exact ih others ((List.mem_cons.mp known).resolve_left fun equal => same equal.symm)

/-! ## Handing items out -/

theorem map_eq_self_of_not_mem {f : Item → Item} {items : List Item} {wanted : Key}
    (absent : wanted ∉ items.map key) :
    (items.map fun item => if key item = wanted then f item else item) = items := by
  have unchanged : ∀ item ∈ items, (if key item = wanted then f item else item) = item := by
    intro item member
    exact if_neg fun same => absent (List.mem_map.mpr ⟨item, member, same⟩)
  rw [List.map_congr_left unchanged, List.map_id']

/-- With distinct keys, the first item of a key is the only one. -/
theorem modify_findIdx? {f : Item → Item} {items : List Item} (distinct : (items.map key).Nodup)
    {wanted : Key} {index : Nat}
    (found : (items.findIdx? fun item => key item = wanted) = some index) :
    items.modify index f = items.map fun item => if key item = wanted then f item else item := by
  induction items generalizing index with
  | nil => cases found
  | cons first rest ih =>
      obtain ⟨absent, others⟩ := List.nodup_cons.mp distinct
      rw [List.findIdx?_cons] at found
      by_cases here : key first = wanted
      · rw [if_pos (decide_eq_true here), Option.some.injEq] at found
        rw [← found, List.modify_zero_cons, List.map_cons, if_pos here,
          map_eq_self_of_not_mem (here ▸ absent)]
      · rw [if_neg (by simpa using here)] at found
        obtain ⟨later, isLater, rfl⟩ := Option.map_eq_some_iff.mp found
        rw [List.modify_succ_cons, List.map_cons, if_neg here, ih others isLater]

/-- Items that belong to distinct keys are handed out once each. -/
theorem perm_flatMap_filter {Other : Type} {keys : List Key} (distinct : keys.Nodup)
    {home : Other → Key} {items : List Other} (homed : ∀ item ∈ items, home item ∈ keys) :
    (keys.flatMap fun wanted => items.filter fun item => home item = wanted).Perm items := by
  induction keys generalizing items with
  | nil =>
      have empty : items = [] := List.eq_nil_iff_forall_not_mem.mpr fun item member =>
        List.not_mem_nil (homed item member)
      rw [empty]
      exact List.Perm.refl _
  | cons first keys ih =>
      obtain ⟨absent, others⟩ := List.nodup_cons.mp distinct
      have rest : ∀ item ∈ items.filter (fun item => !decide (home item = first)),
          home item ∈ keys := by
        intro item member
        obtain ⟨isItem, elsewhere⟩ := List.mem_filter.mp member
        rcases List.mem_cons.mp (homed item isItem) with here | there
        · simp [here] at elsewhere
        · exact there
      have same : (keys.flatMap fun wanted => items.filter fun item => home item = wanted) =
          keys.flatMap fun wanted => (items.filter fun item =>
            !decide (home item = first)).filter fun item => home item = wanted := by
        refine List.flatMap_congr ?_
        intro wanted member
        rw [List.filter_filter]
        refine List.filter_congr ?_
        intro item _
        by_cases here : home item = wanted
        · have other : wanted ≠ first := fun equal => absent (equal ▸ member)
          simp [here, other]
        · simp [here]
      rw [List.flatMap_cons, same]
      exact ((ih others rest).append_left _).trans
        (List.filter_append_perm (fun item => decide (home item = first)) items)

end ScaphandreFormal.Foundation
