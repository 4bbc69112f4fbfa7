import ScaphandreFormal.Sensors.TrackerInvariant
import Mathlib.Data.List.Chain

/-!
# What cleaning the terminated processes leaves

`clean_terminated_process_records_vectors` empties vectors by the status of
their process, and `drop_empty_process_records_vectors` then removes the empty
ones while it walks over the vector it removes from.  A removal moves the next
vector to the index just visited, so the walk passes it unseen; the last index
is visited only when something was removed before.
-/

namespace ScaphandreFormal.Sensors

variable {Trace : Type}

namespace ProcessTracker

/-! ## The walk of the removal loop -/

/-- The loop from the current index on, with `visits` indices to go: behind a removed
vector one is passed unseen. -/
def sweepEmpty : Nat → List (List (ProcessRecord Trace)) → List (List (ProcessRecord Trace))
  | 0, procs => procs
  | _ + 1, [] => []
  | _ + 1, [[]] => []
  | visits + 1, [] :: next :: rest => next :: sweepEmpty visits rest
  | visits + 1, (first :: older) :: rest => (first :: older) :: sweepEmpty visits rest

theorem dropEmptyAt_of_length_le (indices : List Nat) (procs : List (List (ProcessRecord Trace)))
    (outside : ∀ index ∈ indices, procs.length ≤ index) : dropEmptyAt indices procs = procs := by
  induction indices with
  | nil => rfl
  | cons index rest ih =>
      obtain ⟨here, later⟩ := List.forall_mem_cons.mp outside
      rw [dropEmptyAt, List.getElem?_eq_none here]
      exact ih later

theorem dropEmptyAt_range' (visits : Nat) (passed procs : List (List (ProcessRecord Trace))) :
    dropEmptyAt (List.range' passed.length visits) (passed ++ procs) =
      passed ++ sweepEmpty visits procs := by
  induction visits generalizing passed procs with
  | zero => rfl
  | succ visits ih =>
      rw [List.range'_succ, dropEmptyAt, List.getElem?_append_right (Nat.le_refl _), Nat.sub_self]
      rcases procs with _ | ⟨_ | ⟨first, older⟩, rest⟩
      · rw [sweepEmpty, List.append_nil]
        apply dropEmptyAt_of_length_le
        intro index member
        have := (List.mem_range'_1.mp member).1
        omega
      · cases rest with
        | nil =>
            rw [sweepEmpty, List.append_nil]
            simp only [List.getElem?_cons_zero, List.eraseIdx_append_of_length_le (Nat.le_refl _),
              Nat.sub_self, List.eraseIdx_cons_zero, List.append_nil]
            apply dropEmptyAt_of_length_le
            intro index member
            have := (List.mem_range'_1.mp member).1
            omega
        | cons next rest =>
            have shifted := ih (passed ++ [next]) rest
            rw [List.length_append, List.append_assoc, List.append_assoc] at shifted
            simpa [List.eraseIdx_append_of_length_le, sweepEmpty] using shifted
      · have moved := ih (passed ++ [first :: older]) rest
        rw [List.length_append, List.append_assoc, List.append_assoc] at moved
        simpa [sweepEmpty] using moved

theorem dropEmptyProcessRecordsVectors_eq (procs : List (List (ProcessRecord Trace))) :
    dropEmptyProcessRecordsVectors procs = sweepEmpty (procs.length - 1) procs := by
  rw [dropEmptyProcessRecordsVectors, List.range_eq_range']
  exact dropEmptyAt_range' _ [] procs

/-- Only empty vectors are removed. -/
theorem filter_sweepEmpty (visits : Nat) (procs : List (List (ProcessRecord Trace))) :
    (sweepEmpty visits procs).filter (fun vector => !vector.isEmpty) =
      procs.filter fun vector => !vector.isEmpty := by
  fun_induction sweepEmpty visits procs with
  | case1 procs => rfl
  | case2 visits => rfl
  | case3 visits => rfl
  | case4 visits next rest ih => simp [List.filter_cons, ih]
  | case5 visits first older rest ih => simp [ih]

/-- No two neighbours are both empty. -/
def NoAdjacentEmpty (procs : List (List (ProcessRecord Trace))) : Prop :=
  procs.IsChain fun left right => ¬ (left = [] ∧ right = [])

theorem noAdjacentEmpty_cons {vector : List (ProcessRecord Trace)} (notEmpty : vector ≠ [])
    (rest : List (List (ProcessRecord Trace))) :
    NoAdjacentEmpty (vector :: rest) ↔ NoAdjacentEmpty rest := by
  cases rest with
  | nil => simp [NoAdjacentEmpty]
  | cons next later => simp [NoAdjacentEmpty, notEmpty]

theorem noAdjacentEmpty_nil_cons (next : List (ProcessRecord Trace))
    (rest : List (List (ProcessRecord Trace))) :
    NoAdjacentEmpty ([] :: next :: rest) ↔ next ≠ [] ∧ NoAdjacentEmpty rest := by
  have split : NoAdjacentEmpty ([] :: next :: rest) ↔ next ≠ [] ∧ NoAdjacentEmpty (next :: rest) :=
    by simp [NoAdjacentEmpty]
  rw [split]
  exact and_congr_right fun notEmpty => noAdjacentEmpty_cons notEmpty rest

theorem nil_not_mem_cons {vector : List (ProcessRecord Trace)}
    {rest : List (List (ProcessRecord Trace))} :
    [] ∉ vector :: rest ↔ vector ≠ [] ∧ [] ∉ rest := by
  rw [List.mem_cons, not_or, eq_comm]

/-- A walk over all indices leaves no empty vector just when no two are neighbours. -/
theorem nil_not_mem_sweepEmpty_of_length_le (visits : Nat)
    (procs : List (List (ProcessRecord Trace))) (long : procs.length ≤ visits) :
    [] ∉ sweepEmpty visits procs ↔ NoAdjacentEmpty procs := by
  fun_induction sweepEmpty visits procs with
  | case1 procs =>
      rw [List.length_eq_zero_iff.mp (Nat.le_zero.mp long)]
      simp [NoAdjacentEmpty]
  | case2 visits => simp [NoAdjacentEmpty]
  | case3 visits => simp [NoAdjacentEmpty]
  | case4 visits next rest ih =>
      rw [nil_not_mem_cons, noAdjacentEmpty_nil_cons, ih]
      simp only [List.length_cons] at long
      omega
  | case5 visits first older rest ih =>
      have notEmpty : first :: older ≠ [] := List.cons_ne_nil _ _
      rw [nil_not_mem_cons, noAdjacentEmpty_cons notEmpty, ih]
      · exact and_iff_right notEmpty
      · simp only [List.length_cons] at long
        omega

/-- A walk that stops before the last index reaches the last vector only behind a removal. -/
theorem nil_not_mem_sweepEmpty (visits : Nat) (procs : List (List (ProcessRecord Trace)))
    (long : procs.length = visits + 1) :
    [] ∉ sweepEmpty visits procs ↔
      NoAdjacentEmpty procs ∧ (procs.getLast? = some [] → [] ∈ procs.dropLast) := by
  fun_induction sweepEmpty visits procs with
  | case1 procs =>
      obtain ⟨only, rfl⟩ := List.length_eq_one_iff.mp long
      simp [NoAdjacentEmpty, eq_comm]
  | case2 visits => simp at long
  | case3 visits => simp at long
  | case4 visits next rest ih =>
      simp only [List.length_cons] at long
      rw [nil_not_mem_cons, noAdjacentEmpty_nil_cons,
        nil_not_mem_sweepEmpty_of_length_le visits rest (by omega)]
      simp
  | case5 visits first older rest ih =>
      have notEmpty : first :: older ≠ [] := List.cons_ne_nil _ _
      simp only [List.length_cons, Nat.add_right_cancel_iff] at long
      rw [nil_not_mem_cons, noAdjacentEmpty_cons notEmpty, ih long, and_iff_right notEmpty]
      cases rest with
      | nil => simp at long
      | cons next later =>
          simp [List.getLast?_cons_cons]

/-! ## Statuses -/

/-- The process of the vector is not in the table, or the vector is empty. -/
def Gone (status : Nat → Option ProcessStatus) (vector : List (ProcessRecord Trace)) : Prop :=
  ∀ first ∈ vector.head?, status first.process.pid = none

/-- The process is reported as `Stop` or as `Dead`: cleaning and reporting disagree on it. -/
def Disputed (status : Nat → Option ProcessStatus) (vector : List (ProcessRecord Trace)) : Prop :=
  ∃ first ∈ vector.head?,
    status first.process.pid = some .stop ∨ status first.process.pid = some .dead

/-- The vector is one that `get_alive_processes` returns. -/
def isAlive (status : Nat → Option ProcessStatus) (vector : List (ProcessRecord Trace)) : Bool :=
  match vector with
  | [] => false
  | first :: _ =>
      match status first.process.pid with
      | some status => status ≠ .dead
      | none => false

theorem getAliveProcesses_eq (status : Nat → Option ProcessStatus)
    (tracker : ProcessTracker Trace) :
    tracker.getAliveProcesses status = tracker.procs.filter (isAlive status) := by
  rw [getAliveProcesses]
  congr 1

theorem cleanVector_eq_nil_iff {status : Nat → Option ProcessStatus}
    {vector : List (ProcessRecord Trace)} (agreed : ¬ Disputed status vector) :
    cleanVector status vector = [] ↔ Gone status vector := by
  cases vector with
  | nil => simp [cleanVector, Gone]
  | cons first rest =>
      have notStopped : status first.process.pid ≠ some .stop :=
        fun stopped => agreed ⟨first, rfl, Or.inl stopped⟩
      cases known : status first.process.pid with
      | none => simp [cleanVector, Gone, known]
      | some reported =>
          rw [known] at notStopped
          cases reported <;> simp_all [cleanVector, Gone]

/-- Cleaning keeps a vector just when it is reported alive, unless its status is disputed. -/
theorem isEmpty_cleanVector_iff (status : Nat → Option ProcessStatus)
    (vector : List (ProcessRecord Trace)) :
    (!(cleanVector status vector).isEmpty) = isAlive status vector ↔ ¬ Disputed status vector := by
  cases vector with
  | nil => simp [cleanVector, isAlive, Disputed]
  | cons first rest =>
      cases known : status first.process.pid with
      | none => simp [cleanVector, isAlive, Disputed, known]
      | some reported => cases reported <;> simp [cleanVector, isAlive, Disputed, known]

theorem cleanVector_eq_self {status : Nat → Option ProcessStatus}
    {vector : List (ProcessRecord Trace)} (kept : cleanVector status vector ≠ []) :
    cleanVector status vector = vector := by
  cases vector with
  | nil => rfl
  | cons first rest =>
      rw [cleanVector] at kept ⊢
      split
      · simp_all
      · rfl
      · simp_all

theorem filter_map_cleanVector (status : Nat → Option ProcessStatus)
    (procs : List (List (ProcessRecord Trace))) :
    (procs.map (cleanVector status)).filter (fun vector => !vector.isEmpty) =
      procs.filter fun vector => !(cleanVector status vector).isEmpty := by
  induction procs with
  | nil => rfl
  | cons vector rest ih =>
      rw [List.map_cons, List.filter_cons, List.filter_cons, ih]
      split
      · rename_i kept
        rw [cleanVector_eq_self (by simpa using kept)]
      · rfl

theorem filter_eq_filter_iff {Item : Type} (keep other : Item → Bool) (items : List Item) :
    items.filter keep = items.filter other ↔ ∀ item ∈ items, keep item = other item := by
  constructor
  · intro same item member
    rw [Bool.eq_iff_iff]
    constructor
    · intro kept
      have listed : item ∈ items.filter other := same ▸ List.mem_filter.mpr ⟨member, kept⟩
      exact (List.mem_filter.mp listed).2
    · intro kept
      have listed : item ∈ items.filter keep := same ▸ List.mem_filter.mpr ⟨member, kept⟩
      exact (List.mem_filter.mp listed).2
  · exact List.filter_congr

/-! ## Cleaning against reporting -/

/-- Cleaning leaves the vectors that were reported alive, in their order and with all their
records, and no empty vector. -/
def KeepsTheLiving (status : Nat → Option ProcessStatus) (tracker : ProcessTracker Trace) : Prop :=
  (tracker.cleanTerminatedProcessRecordsVectors status).procs = tracker.getAliveProcesses status ∧
    [] ∉ (tracker.cleanTerminatedProcessRecordsVectors status).procs

/-- No status is disputed, no two neighbours are gone, and the last vector is not the only
one that is gone. -/
structure Sweepable (status : Nat → Option ProcessStatus)
    (procs : List (List (ProcessRecord Trace))) : Prop where
  agreed : ∀ vector ∈ procs, ¬ Disputed status vector
  apart : procs.IsChain fun left right => ¬ (Gone status left ∧ Gone status right)
  last : ∀ vector ∈ procs.getLast?, Gone status vector → ∃ other ∈ procs.dropLast, Gone status other

theorem procs_cleanTerminated_of_nil_not_mem {status : Nat → Option ProcessStatus}
    {tracker : ProcessTracker Trace}
    (noneEmpty : [] ∉ (tracker.cleanTerminatedProcessRecordsVectors status).procs) :
    (tracker.cleanTerminatedProcessRecordsVectors status).procs =
      tracker.procs.filter fun vector => !(cleanVector status vector).isEmpty := by
  have allKept : (tracker.cleanTerminatedProcessRecordsVectors status).procs.filter
      (fun vector => !vector.isEmpty) =
        (tracker.cleanTerminatedProcessRecordsVectors status).procs := by
    rw [List.filter_eq_self]
    intro vector member
    cases vector with
    | nil => exact absurd member noneEmpty
    | cons first rest => rfl
  rw [← allKept, cleanTerminatedProcessRecordsVectors, dropEmptyProcessRecordsVectors_eq,
    filter_sweepEmpty, filter_map_cleanVector]

/-- The removal leaves no empty vector just when the vectors that are gone lie apart and the
last one does not stand alone. -/
theorem nil_not_mem_cleanTerminated_iff {status : Nat → Option ProcessStatus}
    {tracker : ProcessTracker Trace} (agreed : ∀ vector ∈ tracker.procs, ¬ Disputed status vector) :
    [] ∉ (tracker.cleanTerminatedProcessRecordsVectors status).procs ↔
      (tracker.procs.IsChain fun left right => ¬ (Gone status left ∧ Gone status right)) ∧
        ∀ vector ∈ tracker.procs.getLast?, Gone status vector →
          ∃ other ∈ tracker.procs.dropLast, Gone status other := by
  rw [cleanTerminatedProcessRecordsVectors, dropEmptyProcessRecordsVectors_eq, List.length_map]
  rcases List.eq_nil_or_concat tracker.procs with nothing | ⟨earlier, newest, listed⟩
  · simp [nothing, sweepEmpty]
  · have emptied : ∀ vector ∈ tracker.procs, cleanVector status vector = [] ↔ Gone status vector :=
      fun vector member => cleanVector_eq_nil_iff (agreed vector member)
    rw [nil_not_mem_sweepEmpty _ _ (by simp [listed])]
    refine and_congr ?_ ?_
    · rw [NoAdjacentEmpty, List.isChain_map]
      refine List.IsChain.iff_of_mem_imp ?_
      intro left right isLeft isRight
      rw [emptied left isLeft, emptied right isRight]
    · rw [List.getLast?_map, ← List.map_dropLast]
      simp only [listed, List.concat_eq_append, List.mem_append, List.mem_singleton] at emptied ⊢
      simp only [List.getLast?_append, List.getLast?_singleton, Option.some_or, Option.map_some,
        Option.some.injEq, List.dropLast_concat, List.mem_map, Option.mem_some_iff, forall_eq']
      rw [emptied newest (Or.inr rfl)]
      refine imp_congr_right fun _ => exists_congr fun other => and_congr_right fun isOther => ?_
      exact emptied other (Or.inl isOther)

/-- Cleaning keeps exactly the living just when no process is stopped or dead, the vectors
of unknown processes and the empty ones lie apart, and the last vector is not the only such
one. -/
theorem keepsTheLiving_iff (status : Nat → Option ProcessStatus) (tracker : ProcessTracker Trace) :
    KeepsTheLiving status tracker ↔ Sweepable status tracker.procs := by
  have same_iff : ∀ noneEmpty : [] ∉ (tracker.cleanTerminatedProcessRecordsVectors status).procs,
      (tracker.cleanTerminatedProcessRecordsVectors status).procs =
        tracker.getAliveProcesses status ↔
          ∀ vector ∈ tracker.procs, ¬ Disputed status vector := by
    intro noneEmpty
    rw [procs_cleanTerminated_of_nil_not_mem noneEmpty, getAliveProcesses_eq, filter_eq_filter_iff]
    exact forall₂_congr fun vector _ => isEmpty_cleanVector_iff status vector
  constructor
  · rintro ⟨same, noneEmpty⟩
    have agreed := (same_iff noneEmpty).mp same
    obtain ⟨apart, last⟩ := (nil_not_mem_cleanTerminated_iff agreed).mp noneEmpty
    exact ⟨agreed, apart, last⟩
  · rintro ⟨agreed, apart, last⟩
    have noneEmpty := (nil_not_mem_cleanTerminated_iff agreed).mpr ⟨apart, last⟩
    exact ⟨(same_iff noneEmpty).mpr agreed, noneEmpty⟩

/-- A record of the pid. -/
def recordOf (pid : Nat) : ProcessRecord Unit := ⟨seenProcess pid ['a'], 0⟩

/-- Two neighbours that both ended: the second one stays as an empty vector. -/
theorem not_keepsTheLiving_of_two_ended :
    ¬ KeepsTheLiving (fun pid => if pid = 9 then some .run else none)
      ⟨[[recordOf 7], [recordOf 8], [recordOf 9]], 1, 5⟩ := by
  rintro ⟨same, -⟩
  exact absurd same (by decide)

end ProcessTracker

end ScaphandreFormal.Sensors
