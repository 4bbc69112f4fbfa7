import Mathlib.Algebra.Group.Nat.Even
import Mathlib.Data.List.Basic

/-!
# Finite runs of a deterministic system

A system is a step function on its states; a run is a finite list of events
taken from a start state.  `Meets` says that every event of a run satisfies a
condition in the state it is taken from, and `Always` that a property holds
after every prefix of the run.  The rules at the end are the inductions over
runs that the component proofs share.
-/

namespace ScaphandreFormal.Foundation

variable {State Event : Type}

/-- The state reached from `start` by taking `events` in order. -/
def run (step : State → Event → State) (start : State) (events : List Event) : State :=
  events.foldl step start

/-- Every event satisfies `condition` in the state it is taken from. -/
def Meets (step : State → Event → State) (condition : State → Event → Prop) :
    State → List Event → Prop
  | _, [] => True
  | start, event :: rest =>
      condition start event ∧ Meets step condition (step start event) rest

/-- `property` holds in every state the run passes through, its end included. -/
def Always (step : State → Event → State) (property : State → Prop)
    (start : State) (events : List Event) : Prop :=
  ∀ taken, taken <+: events → property (run step start taken)

section Rules

variable {step : State → Event → State} {start : State}

@[simp]
theorem run_nil : run step start [] = start := rfl

@[simp]
theorem run_cons (event : Event) (rest : List Event) :
    run step start (event :: rest) = run step (step start event) rest := rfl

theorem run_append (first second : List Event) :
    run step start (first ++ second) = run step (run step start first) second := by
  simp only [run, List.foldl_append]

@[simp]
theorem run_concat (events : List Event) (event : Event) :
    run step start (events ++ [event]) = step (run step start events) event := by
  simp [run]

variable {condition : State → Event → Prop}

@[simp]
theorem meets_nil : Meets step condition start [] := trivial

@[simp]
theorem meets_cons (event : Event) (rest : List Event) :
    Meets step condition start (event :: rest) ↔
      condition start event ∧ Meets step condition (step start event) rest := Iff.rfl

theorem meets_append (first second : List Event) :
    Meets step condition start (first ++ second) ↔
      Meets step condition start first ∧
        Meets step condition (run step start first) second := by
  induction first generalizing start with
  | nil => simp
  | cons event rest ih => simp [ih, and_assoc]

instance decidableMeets [∀ state event, Decidable (condition state event)] :
    ∀ (start : State) (events : List Event), Decidable (Meets step condition start events)
  | _, [] => isTrue trivial
  | start, event :: rest =>
      match decEq (decide (condition start event)) true,
          decidableMeets (step start event) rest with
      | isTrue here, isTrue later => isTrue ⟨of_decide_eq_true here, later⟩
      | isFalse not, _ => isFalse fun meets => not (decide_eq_true meets.1)
      | _, isFalse not => isFalse fun meets => not meets.2

variable {invariant : State → Prop}

/-- An invariant kept by every event that meets the condition holds at the end of
every run that meets it. -/
theorem invariant_of_meets {events : List Event}
    (kept : ∀ state event, invariant state → condition state event →
      invariant (step state event))
    (holds : invariant start) (meets : Meets step condition start events) :
    invariant (run step start events) := by
  induction events generalizing start with
  | nil => exact holds
  | cons event rest ih => exact ih (kept _ _ holds meets.1) meets.2

/-- An invariant kept by every step holds at the end of every run. -/
theorem invariant_run (invariant : State → Prop)
    (kept : ∀ state event, invariant state → invariant (step state event))
    (holds : invariant start) (events : List Event) : invariant (run step start events) := by
  induction events generalizing start with
  | nil => exact holds
  | cons event rest ih => exact ih (kept _ _ holds)

/-- What no event of the run changes is at its end what it was at the start. -/
theorem frame_run {Value : Type} (view : State → Value) {events : List Event}
    (frame : ∀ state, ∀ event ∈ events, view (step state event) = view state) :
    view (run step start events) = view start := by
  induction events generalizing start with
  | nil => rfl
  | cons event rest ih =>
      obtain ⟨here, later⟩ : (∀ state, view (step state event) = view state) ∧
          ∀ state, ∀ other ∈ rest, view (step state other) = view state :=
        ⟨fun state => frame state event List.mem_cons_self,
          fun state other isOther => frame state other (List.mem_cons_of_mem _ isOther)⟩
      rw [run_cons, ih later, here]

/-- Two systems that take each event in step stay related over the whole run. -/
theorem related_run {Other : Type} {otherStep : Other → Event → Other} {otherStart : Other}
    (related : State → Other → Prop) {events : List Event}
    (kept : ∀ state other, ∀ event ∈ events, related state other →
      related (step state event) (otherStep other event))
    (holds : related start otherStart) :
    related (run step start events) (run otherStep otherStart events) := by
  induction events generalizing start otherStart with
  | nil => exact holds
  | cons event rest ih =>
      refine ih ?_ (kept _ _ event List.mem_cons_self holds)
      intro state other later isLater
      exact kept state other later (List.mem_cons_of_mem _ isLater)

/-- What the invariant and the condition give at each event holds at every event of the
run. -/
theorem meets_of_invariant (invariant : State → Prop) {target : State → Event → Prop}
    {events : List Event}
    (kept : ∀ state event, invariant state → condition state event →
      invariant (step state event))
    (gives : ∀ state event, invariant state → condition state event → target state event)
    (holds : invariant start) (meets : Meets step condition start events) :
    Meets step target start events := by
  induction events generalizing start with
  | nil => trivial
  | cons event rest ih =>
      exact ⟨gives _ _ holds meets.1, ih (kept _ _ holds meets.1) meets.2⟩

/-- A property that the invariant gives holds in every state of the run. -/
theorem always_of_invariant {property : State → Prop} {events : List Event}
    (kept : ∀ state event, invariant state → condition state event →
      invariant (step state event))
    (gives : ∀ state, invariant state → property state)
    (holds : invariant start) (meets : Meets step condition start events) :
    Always step property start events := by
  rintro taken ⟨rest, rfl⟩
  exact gives _ (invariant_of_meets kept holds ((meets_append taken rest).mp meets).1)

/-- A property that fails at the end of a run does not hold throughout it. -/
theorem not_always_of_run {property : State → Prop} {events : List Event}
    (fails : ¬ property (run step start events)) : ¬ Always step property start events :=
  fun always => fails (always events List.prefix_rfl)

theorem always_cons {property : State → Prop} (event : Event) (rest : List Event) :
    Always step property start (event :: rest) ↔
      property start ∧ Always step property (step start event) rest := by
  constructor
  · intro always
    refine ⟨always [] (List.nil_prefix), ?_⟩
    intro taken isTaken
    exact always (event :: taken) (List.cons_prefix_cons.mpr ⟨rfl, isTaken⟩)
  · rintro ⟨here, later⟩ taken isTaken
    cases taken with
    | nil => exact here
    | cons first remaining =>
        obtain ⟨same, isRemaining⟩ := List.cons_prefix_cons.mp isTaken
        cases same
        exact later remaining isRemaining

/-- The exact form of the invariant rule, beside an invariant that every step keeps: where
a step keeps the property just when it meets the condition, a run keeps it throughout just
when all its steps meet it. -/
theorem always_iff_meets_of_invariant (invariant : State → Prop) {property : State → Prop}
    {events : List Event}
    (kept : ∀ state event, invariant state → invariant (step state event))
    (exact : ∀ state event, invariant state → property state →
      (property (step state event) ↔ condition state event))
    (supported : invariant start) (holds : property start) :
    Always step property start events ↔ Meets step condition start events := by
  induction events generalizing start with
  | nil =>
      constructor
      · intro _
        trivial
      · intro _ taken isTaken
        rw [List.prefix_nil.mp isTaken]
        exact holds
  | cons event rest ih =>
      rw [always_cons, meets_cons]
      have supportedNext : invariant (step start event) := kept _ _ supported
      constructor
      · rintro ⟨_, later⟩
        have next : property (step start event) := later [] List.nil_prefix
        exact ⟨(exact _ _ supported holds).mp next, (ih supportedNext next).mp later⟩
      · rintro ⟨here, later⟩
        exact ⟨holds, (ih supportedNext ((exact _ _ supported holds).mpr here)).mpr later⟩

theorem always_iff_meets {property : State → Prop} {events : List Event}
    (exact : ∀ state event, property state →
      (property (step state event) ↔ condition state event))
    (holds : property start) :
    Always step property start events ↔ Meets step condition start events :=
  always_iff_meets_of_invariant (fun _ => True) (fun _ _ _ => trivial)
    (fun state event _ => exact state event) trivial holds

end Rules

end ScaphandreFormal.Foundation
