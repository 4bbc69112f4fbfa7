import Mathlib.Data.List.Basic

/-!
# Computations that may fail

Rules for `Except`: what a successful sequence, map or fold says about its
steps, and the invariant rule for folds that succeed.
-/

namespace ScaphandreFormal.Foundation

variable {Error Item Value State : Type}

theorem bind_eq_ok {action : Except Error Item} {next : Item → Except Error Value} {value : Value}
    (succeeds : action.bind next = .ok value) :
    ∃ item, action = .ok item ∧ next item = .ok value := by
  cases action with
  | error problem => cases succeeds
  | ok item => exact ⟨item, rfl, succeeds⟩

theorem map_eq_ok {action : Except Error Item} {f : Item → Value} {value : Value}
    (succeeds : action.map f = .ok value) : ∃ item, action = .ok item ∧ f item = value := by
  cases action with
  | error problem => cases succeeds
  | ok item =>
      cases succeeds
      exact ⟨item, rfl, rfl⟩

theorem exists_map_eq_ok {action : Except Error Item} {f : Item → Value} :
    (∃ value, action.map f = .ok value) ↔ ∃ item, action = .ok item := by
  cases action with
  | error problem => exact ⟨nofun, nofun⟩
  | ok item => exact ⟨fun _ => ⟨item, rfl⟩, fun _ => ⟨f item, rfl⟩⟩

/-! ## Maps -/

theorem mapM_eq_ok {f : Item → Except Error Value} {value : Item → Value} {items : List Item}
    (each : ∀ item ∈ items, f item = .ok (value item)) :
    items.mapM f = .ok (items.map value) := by
  induction items with
  | nil => rfl
  | cons item rest ih =>
      obtain ⟨here, later⟩ := List.forall_mem_cons.mp each
      rw [List.mapM_cons, here, ih later]
      rfl

/-- A map that succeeds maps each item. -/
theorem forall₂_of_mapM_eq_ok {f : Item → Except Error Value} {items : List Item}
    {values : List Value} (all : items.mapM f = .ok values) :
    List.Forall₂ (fun item value => f item = .ok value) items values := by
  induction items generalizing values with
  | nil =>
      cases all
      exact .nil
  | cons item rest ih =>
      rw [List.mapM_cons] at all
      obtain ⟨value, here, tail⟩ := bind_eq_ok all
      obtain ⟨others, later, whole⟩ := bind_eq_ok tail
      cases whole
      exact .cons here (ih later)

/-- Lists that are related entry by entry have their entries related. -/
theorem exists_mem_of_forall₂ {related : Item → Value → Prop} {items : List Item}
    {values : List Value} (pairs : List.Forall₂ related items values) :
    (∀ item ∈ items, ∃ value ∈ values, related item value) ∧
      ∀ value ∈ values, ∃ item ∈ items, related item value := by
  induction pairs with
  | nil => exact ⟨List.forall_mem_nil _, List.forall_mem_nil _⟩
  | cons here _ ih =>
      constructor
      · refine List.forall_mem_cons.mpr ⟨⟨_, List.mem_cons_self, here⟩, ?_⟩
        intro item member
        obtain ⟨value, isValue, pair⟩ := ih.1 item member
        exact ⟨value, List.mem_cons_of_mem _ isValue, pair⟩
      · refine List.forall_mem_cons.mpr ⟨⟨_, List.mem_cons_self, here⟩, ?_⟩
        intro value member
        obtain ⟨item, isItem, pair⟩ := ih.2 value member
        exact ⟨item, List.mem_cons_of_mem _ isItem, pair⟩

/-- Every item has its value among those of a map that succeeds. -/
theorem exists_mem_of_mapM_eq_ok {f : Item → Except Error Value} {items : List Item}
    {values : List Value} (all : items.mapM f = .ok values) :
    ∀ item ∈ items, ∃ value ∈ values, f item = .ok value :=
  (exists_mem_of_forall₂ (forall₂_of_mapM_eq_ok all)).1

theorem mapM_eq_some {f : Item → Option Value} {value : Item → Value} {items : List Item}
    (each : ∀ item ∈ items, f item = some (value item)) :
    items.mapM f = some (items.map value) := by
  induction items with
  | nil => rfl
  | cons item rest ih =>
      obtain ⟨here, later⟩ := List.forall_mem_cons.mp each
      rw [List.mapM_cons, here, ih later]
      rfl

theorem forall₂_of_mapM_eq_some {f : Item → Option Value} {items : List Item}
    {values : List Value} (all : items.mapM f = some values) :
    List.Forall₂ (fun item value => f item = some value) items values := by
  induction items generalizing values with
  | nil =>
      cases all
      exact .nil
  | cons item rest ih =>
      rw [List.mapM_cons] at all
      obtain ⟨value, here, tail⟩ := Option.bind_eq_some_iff.mp all
      obtain ⟨others, later, whole⟩ := Option.bind_eq_some_iff.mp tail
      cases whole
      exact .cons here (ih later)

/-- A map that succeeds maps each item, to one of its values. -/
theorem exists_mem_of_mapM_eq_some {f : Item → Option Value} {items : List Item}
    {values : List Value} (all : items.mapM f = some values) :
    (∀ item ∈ items, ∃ value ∈ values, f item = some value) ∧
      ∀ value ∈ values, ∃ item ∈ items, f item = some value :=
  exists_mem_of_forall₂ (forall₂_of_mapM_eq_some all)

/-! ## Folds -/

section Folds

variable {step : State → Item → Except Error State}

theorem foldlM_cons_eq_ok {start result : State} {item : Item} {rest : List Item}
    (succeeds : (item :: rest).foldlM step start = .ok result) :
    ∃ next, step start item = .ok next ∧ rest.foldlM step next = .ok result := by
  rw [List.foldlM_cons] at succeeds
  exact bind_eq_ok succeeds

theorem foldlM_append_eq_ok {start result : State} {first second : List Item}
    (succeeds : (first ++ second).foldlM step start = .ok result) :
    ∃ middle, first.foldlM step start = .ok middle ∧ second.foldlM step middle = .ok result := by
  rw [List.foldlM_append] at succeeds
  exact bind_eq_ok succeeds

/-- What every successful step keeps holds after a fold that succeeds. -/
theorem invariant_foldlM (invariant : State → Prop) {items : List Item}
    (kept : ∀ state, ∀ item ∈ items, ∀ next, invariant state → step state item = .ok next →
      invariant next)
    {start result : State} (holds : invariant start)
    (succeeds : items.foldlM step start = .ok result) : invariant result := by
  induction items generalizing start with
  | nil =>
      cases succeeds
      exact holds
  | cons item rest ih =>
      obtain ⟨next, here, later⟩ := foldlM_cons_eq_ok succeeds
      refine ih ?_ (kept start item List.mem_cons_self next holds here) later
      intro state other isOther
      exact kept state other (List.mem_cons_of_mem _ isOther)

/-- A fold succeeds when every step does from the states that keep the invariant. -/
theorem foldlM_ok (invariant : State → Prop) {items : List Item}
    (progress : ∀ state, ∀ item ∈ items, invariant state →
      ∃ next, step state item = .ok next ∧ invariant next)
    {start : State} (holds : invariant start) :
    ∃ result, items.foldlM step start = .ok result ∧ invariant result := by
  induction items generalizing start with
  | nil => exact ⟨start, rfl, holds⟩
  | cons item rest ih =>
      obtain ⟨next, here, holdsNext⟩ := progress start item List.mem_cons_self holds
      rw [List.foldlM_cons, here]
      refine ih ?_ holdsNext
      intro state other isOther
      exact progress state other (List.mem_cons_of_mem _ isOther)

end Folds

end ScaphandreFormal.Foundation
