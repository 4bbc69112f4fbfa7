import ScaphandreFormal.Foundation.Trace
import ScaphandreFormal.Sensors.ProcessTracker

/-!
# The representation of the process tracker

The tracker stores a map from pids to bounded histories as a vector of vectors.
No two vectors share a pid, the records of one vector agree on the pid and the
executable, and no vector exceeds the limit.  Every operation keeps this up, so
a pid names at most one vector and the lookups by pid are unambiguous.
-/

namespace ScaphandreFormal.Sensors

open Foundation

variable {Trace : Type}

/-- All records are of one pid and one executable. -/
def Uniform (vector : List (ProcessRecord Trace)) : Prop :=
  ∀ first ∈ vector, ∀ second ∈ vector,
    first.process.pid = second.process.pid ∧ first.process.comm = second.process.comm

/-- The vectors hold no records of a common pid. -/
def SeparatePids (left right : List (ProcessRecord Trace)) : Prop :=
  ∀ first ∈ left, ∀ second ∈ right, first.process.pid ≠ second.process.pid

theorem uniform_nil : Uniform ([] : List (ProcessRecord Trace)) :=
  fun _ member => absurd member List.not_mem_nil

theorem uniform_singleton (record : ProcessRecord Trace) : Uniform [record] := by
  intro first isFirst second isSecond
  rw [List.mem_singleton.mp isFirst, List.mem_singleton.mp isSecond]
  exact ⟨rfl, rfl⟩

/-- In a uniform vector the first record speaks for all. -/
theorem Uniform.isOf {vector : List (ProcessRecord Trace)} (uniform : Uniform vector)
    {record : ProcessRecord Trace} (member : record ∈ vector) :
    IsOf record.process.pid vector := by
  cases vector with
  | nil => exact absurd member List.not_mem_nil
  | cons first rest => exact (uniform first List.mem_cons_self record member).1

theorem Uniform.pid_eq {vector : List (ProcessRecord Trace)} (uniform : Uniform vector)
    {pid : Nat} (isOf : IsOf pid vector) {record : ProcessRecord Trace}
    (member : record ∈ vector) : record.process.pid = pid := by
  cases vector with
  | nil => exact absurd isOf id
  | cons first rest =>
      exact (uniform record member first List.mem_cons_self).1.trans isOf

theorem exists_mem_of_isOf {vector : List (ProcessRecord Trace)} {pid : Nat}
    (isOf : IsOf pid vector) : ∃ record ∈ vector, record.process.pid = pid := by
  cases vector with
  | nil => exact absurd isOf id
  | cons first rest => exact ⟨first, List.mem_cons_self, isOf⟩

namespace ProcessTracker

structure Represents (tracker : ProcessTracker Trace) : Prop where
  separate : tracker.procs.Pairwise SeparatePids
  uniform : ∀ vector ∈ tracker.procs, Uniform vector
  bounded : ∀ vector ∈ tracker.procs, vector.length ≤ tracker.maxRecordsPerProcess

/-! ## Adding a record -/

theorem mem_popOldest {passes : Nat} {records : List (ProcessRecord Trace)}
    {record : ProcessRecord Trace} (member : record ∈ popOldest passes records) :
    record ∈ records := by
  induction passes generalizing records with
  | zero => exact member
  | succ passes ih =>
      have sorted := List.dropLast_subset _ (ih member)
      exact (List.mem_insertionSort _).mp sorted

theorem length_popOldest (passes : Nat) (records : List (ProcessRecord Trace)) :
    (popOldest passes records).length = records.length - passes := by
  induction passes generalizing records with
  | zero => rfl
  | succ passes ih =>
      rw [popOldest, ih, List.length_dropLast, sortNewestFirst, List.length_insertionSort]
      omega

theorem length_insertRecord_le (maxRecords : Nat) (record : ProcessRecord Trace)
    (vector : List (ProcessRecord Trace)) :
    (insertRecord maxRecords record vector).length ≤ maxRecords := by
  unfold insertRecord cleanOldProcessRecords
  rw [length_popOldest]
  omega

/-- A record of the extended vector is the new one, or an old one that was kept. -/
theorem mem_kept_of_mem_insertRecord {maxRecords : Nat} {record : ProcessRecord Trace}
    {vector : List (ProcessRecord Trace)} {other : ProcessRecord Trace}
    (member : other ∈ insertRecord maxRecords record vector) :
    other = record ∨ other ∈ vector ∧
      ∀ first ∈ vector.head?, record.process.comm = first.process.comm := by
  rcases List.mem_cons.mp (mem_popOldest member) with same | old
  · exact Or.inl same
  · cases vector with
    | nil => exact absurd old List.not_mem_nil
    | cons first rest =>
        simp only at old
        split at old
        · exact absurd old List.not_mem_nil
        · rename_i unchanged
          refine Or.inr ⟨old, ?_⟩
          intro newest isNewest
          cases isNewest
          exact not_not.mp unchanged

/-- A record of the extended vector is the new one or an old one of the same executable. -/
theorem mem_insertRecord {maxRecords : Nat} {record : ProcessRecord Trace}
    {vector : List (ProcessRecord Trace)} (uniform : Uniform vector)
    {other : ProcessRecord Trace} (member : other ∈ insertRecord maxRecords record vector) :
    other = record ∨ other ∈ vector ∧ other.process.comm = record.process.comm := by
  rcases mem_kept_of_mem_insertRecord member with same | ⟨old, unchanged⟩
  · exact Or.inl same
  · cases vector with
    | nil => exact absurd old List.not_mem_nil
    | cons first rest =>
        refine Or.inr ⟨old, ?_⟩
        rw [(uniform other old first List.mem_cons_self).2]
        exact (unchanged first rfl).symm

theorem pid_of_mem_insertRecord {maxRecords : Nat} {record : ProcessRecord Trace}
    {vector : List (ProcessRecord Trace)} (uniform : Uniform vector)
    (isOf : IsOf record.process.pid vector) {other : ProcessRecord Trace}
    (member : other ∈ insertRecord maxRecords record vector) :
    other.process.pid = record.process.pid := by
  rcases mem_insertRecord uniform member with rfl | ⟨old, _⟩
  · rfl
  · exact uniform.pid_eq isOf old

theorem uniform_insertRecord (maxRecords : Nat) {record : ProcessRecord Trace}
    {vector : List (ProcessRecord Trace)} (uniform : Uniform vector)
    (isOf : IsOf record.process.pid vector) :
    Uniform (insertRecord maxRecords record vector) := by
  have comm : ∀ other ∈ insertRecord maxRecords record vector,
      other.process.comm = record.process.comm := by
    intro other member
    rcases mem_insertRecord uniform member with rfl | ⟨_, same⟩
    · rfl
    · exact same
  intro first isFirst second isSecond
  rw [pid_of_mem_insertRecord uniform isOf isFirst, pid_of_mem_insertRecord uniform isOf isSecond,
    comm first isFirst, comm second isSecond]
  exact ⟨rfl, rfl⟩

/-- What separates a vector of the pid from another one separates the extended vector too. -/
theorem separate_insertRecord {maxRecords : Nat} {record : ProcessRecord Trace}
    {vector : List (ProcessRecord Trace)} (uniform : Uniform vector)
    (isOf : IsOf record.process.pid vector) {other : List (ProcessRecord Trace)}
    (distinct : ∀ second ∈ other, record.process.pid ≠ second.process.pid) :
    SeparatePids (insertRecord maxRecords record vector) other := by
  intro first isFirst second isSecond
  rw [pid_of_mem_insertRecord uniform isOf isFirst]
  exact distinct second isSecond

theorem pairwise_addToVectors (maxRecords : Nat) (record : ProcessRecord Trace)
    (procs : List (List (ProcessRecord Trace))) (separate : procs.Pairwise SeparatePids)
    (uniform : ∀ vector ∈ procs, Uniform vector) :
    (addToVectors maxRecords record procs).Pairwise SeparatePids := by
  induction procs with
  | nil => exact List.pairwise_singleton _ _
  | cons vector rest ih =>
      obtain ⟨apart, separateRest⟩ := List.pairwise_cons.mp separate
      have uniformHere := uniform vector List.mem_cons_self
      have uniformRest : ∀ other ∈ rest, Uniform other :=
        fun other member => uniform other (List.mem_cons_of_mem _ member)
      rw [addToVectors]
      split
      · rename_i isOf
        refine List.pairwise_cons.mpr ⟨?_, separateRest⟩
        intro other isOther
        refine separate_insertRecord uniformHere isOf ?_
        obtain ⟨old, isOld, same⟩ := exists_mem_of_isOf isOf
        rw [← same]
        exact apart other isOther old isOld
      · rename_i isNotOf
        have foreign : ∀ old ∈ vector, record.process.pid ≠ old.process.pid := by
          intro old isOld same
          rw [same] at isNotOf
          exact isNotOf (uniformHere.isOf isOld)
        refine List.pairwise_cons.mpr ⟨?_, ih separateRest uniformRest⟩
        intro other isOther
        rcases mem_addToVectors isOther with unchanged | rfl | ⟨old, found, rfl⟩
        · exact apart other unchanged
        · intro first isFirst second isSecond same
          rw [List.mem_singleton.mp isSecond] at same
          exact foreign first isFirst same.symm
        · have isOf : IsOf record.process.pid old := by simpa using List.find?_some found
          have uniformOld := uniformRest old (List.mem_of_find?_eq_some found)
          intro first isFirst second isSecond same
          exact separate_insertRecord uniformOld isOf foreign second isSecond first isFirst
            same.symm

/-- A vector of the pid of the added record is the one the record went to. -/
theorem mem_addToVectors_of_isOf {maxRecords : Nat} {record : ProcessRecord Trace}
    {procs : List (List (ProcessRecord Trace))} (separate : procs.Pairwise SeparatePids)
    {vector : List (ProcessRecord Trace)}
    (member : vector ∈ addToVectors maxRecords record procs)
    (isOf : IsOf record.process.pid vector) :
    vector = [record] ∨ ∃ old ∈ procs, IsOf record.process.pid old ∧
      vector = insertRecord maxRecords record old := by
  induction procs with
  | nil => exact Or.inl (List.mem_singleton.mp member)
  | cons first rest ih =>
      obtain ⟨apart, separateRest⟩ := List.pairwise_cons.mp separate
      rw [addToVectors] at member
      split at member
      · rename_i here
        rcases List.mem_cons.mp member with rfl | later
        · exact Or.inr ⟨first, List.mem_cons_self, here, rfl⟩
        · obtain ⟨left, isLeft, leftPid⟩ := exists_mem_of_isOf here
          obtain ⟨right, isRight, rightPid⟩ := exists_mem_of_isOf isOf
          exact absurd (leftPid.trans rightPid.symm) (apart vector later left isLeft right isRight)
      · rename_i elsewhere
        rcases List.mem_cons.mp member with rfl | later
        · exact absurd isOf elsewhere
        · rcases ih separateRest later with new | ⟨old, isOld, oldIsOf, extended⟩
          · exact Or.inl new
          · exact Or.inr ⟨old, List.mem_cons_of_mem _ isOld, oldIsOf, extended⟩

theorem Represents.addProcessRecord {tracker : ProcessTracker Trace}
    (represents : tracker.Represents) (positive : 1 ≤ tracker.maxRecordsPerProcess) (now : Nat)
    (process : IProcess Trace) : (tracker.addProcessRecord now process).Represents where
  separate := pairwise_addToVectors _ _ _ represents.separate represents.uniform
  uniform := by
    intro vector member
    rcases mem_addToVectors member with old | rfl | ⟨old, found, rfl⟩
    · exact represents.uniform vector old
    · exact uniform_singleton _
    · have isOf : IsOf process.pid old := by simpa using List.find?_some found
      exact uniform_insertRecord _ (represents.uniform old (List.mem_of_find?_eq_some found)) isOf
  bounded := by
    intro vector member
    rcases mem_addToVectors member with old | rfl | ⟨old, found, rfl⟩
    · exact represents.bounded vector old
    · exact positive
    · exact length_insertRecord_le _ _ _

/-! ## Cleaning -/

theorem dropEmptyAt_sublist (indices : List Nat) (procs : List (List (ProcessRecord Trace))) :
    List.Sublist (dropEmptyAt indices procs) procs := by
  induction indices generalizing procs with
  | nil => exact List.Sublist.refl _
  | cons index rest ih =>
      rw [dropEmptyAt]
      split
      · exact (ih _).trans (List.eraseIdx_sublist _ _)
      · exact ih procs

theorem mem_of_mem_cleanVector {status : Nat → Option ProcessStatus}
    {vector : List (ProcessRecord Trace)} {record : ProcessRecord Trace}
    (member : record ∈ cleanVector status vector) : record ∈ vector := by
  cases vector with
  | nil => exact member
  | cons first rest =>
      rw [cleanVector] at member
      split at member
      · exact absurd member List.not_mem_nil
      · exact member
      · exact absurd member List.not_mem_nil

theorem Represents.cleanTerminated {tracker : ProcessTracker Trace}
    (represents : tracker.Represents) (status : Nat → Option ProcessStatus) :
    (tracker.cleanTerminatedProcessRecordsVectors status).Represents where
  separate := by
    refine List.Pairwise.sublist (dropEmptyAt_sublist _ _) ?_
    rw [List.pairwise_map]
    refine represents.separate.imp ?_
    intro left right apart first isFirst second isSecond
    exact apart first (mem_of_mem_cleanVector isFirst) second (mem_of_mem_cleanVector isSecond)
  uniform := by
    intro vector member
    rcases mem_cleanTerminated member with rfl | old
    · exact uniform_nil
    · exact represents.uniform vector old
  bounded := by
    intro vector member
    rcases mem_cleanTerminated member with rfl | old
    · exact Nat.zero_le _
    · exact represents.bounded vector old

/-! ## Lookups by pid -/

/-- How `get_process_name` can panic: no vector of the pid, or two of them. -/
inductive NamePanic where
  | unwrapNone
  | twoVectorsWithSameId
  deriving DecidableEq, Repr

/-- `get_alive_processes`, with the process table of `sysinfo`. -/
def getAliveProcesses (status : Nat → Option ProcessStatus) (tracker : ProcessTracker Trace) :
    List (List (ProcessRecord Trace)) :=
  tracker.procs.filter fun vector =>
    match vector with
    | [] => false
    | first :: _ =>
        match status first.process.pid with
        | some status => status ≠ .dead
        | none => false

def getAlivePids (status : Nat → Option ProcessStatus) (tracker : ProcessTracker Trace) :
    List Nat :=
  (tracker.getAliveProcesses status).filterMap fun vector =>
    vector.head?.map fun first => first.process.pid

def getProcessName (tracker : ProcessTracker Trace) (pid : Nat) : Except NamePanic Text :=
  match tracker.procs.filter fun vector => IsOf pid vector with
  | [] => .error .unwrapNone
  | [vector] =>
      match vector.head? with
      | some first => .ok first.process.comm
      | none => .error .unwrapNone
  | _ :: _ :: _ => .error .twoVectorsWithSameId

/-- A pid names at most one vector. -/
theorem Represents.filter_eq {tracker : ProcessTracker Trace} (represents : tracker.Represents)
    {pid : Nat} {vector : List (ProcessRecord Trace)} (member : vector ∈ tracker.procs)
    (isOf : IsOf pid vector) :
    tracker.procs.filter (fun other => IsOf pid other) = [vector] := by
  have listed : vector ∈ tracker.procs.filter fun other => IsOf pid other :=
    List.mem_filter.mpr ⟨member, by simpa using isOf⟩
  have separate := represents.separate.sublist
    (List.filter_sublist (p := fun other => decide (IsOf pid other)))
  have named : ∀ other ∈ tracker.procs.filter (fun other => IsOf pid other), IsOf pid other :=
    fun other isOther => by simpa using (List.mem_filter.mp isOther).2
  match found : tracker.procs.filter fun other => IsOf pid other with
  | [] =>
      rw [found] at listed
      exact absurd listed List.not_mem_nil
  | [only] =>
      rw [found] at listed
      rw [List.mem_singleton.mp listed]
  | first :: second :: _ =>
      rw [found] at separate named
      obtain ⟨left, isLeft, leftPid⟩ := exists_mem_of_isOf (named first (by simp))
      obtain ⟨right, isRight, rightPid⟩ := exists_mem_of_isOf (named second (by simp))
      exact absurd (leftPid.trans rightPid.symm)
        ((List.pairwise_cons.mp separate).1 second (by simp) left isLeft right isRight)

theorem foldl_findRecords (pid : Nat) (procs : List (List (ProcessRecord Trace)))
    (start : Option (List (ProcessRecord Trace))) :
    procs.foldl (fun refer vector => if IsOf pid vector then some vector else refer) start =
      ((procs.filter fun vector => IsOf pid vector).getLast?).or start := by
  induction procs generalizing start with
  | nil => rfl
  | cons vector rest ih =>
      rw [List.foldl_cons, ih, List.filter_cons]
      by_cases isOf : IsOf pid vector
      · cases later : (rest.filter fun vector => IsOf pid vector) with
        | nil => simp [isOf]
        | cons first others => simp [isOf, List.getLast?_cons]
      · simp [isOf]

/-- `find_records` returns the one vector of the pid. -/
theorem Represents.findRecords_eq {tracker : ProcessTracker Trace}
    (represents : tracker.Represents) {pid : Nat} {vector : List (ProcessRecord Trace)}
    (member : vector ∈ tracker.procs) (isOf : IsOf pid vector) :
    tracker.findRecords pid = some vector := by
  rw [findRecords, foldl_findRecords, represents.filter_eq member isOf]
  rfl

theorem exists_isOf_of_mem_getAlivePids {status : Nat → Option ProcessStatus}
    {tracker : ProcessTracker Trace} {pid : Nat} (alive : pid ∈ tracker.getAlivePids status) :
    ∃ vector ∈ tracker.procs, IsOf pid vector := by
  obtain ⟨vector, isAlive, named⟩ := List.mem_filterMap.mp alive
  refine ⟨vector, (List.mem_filter.mp isAlive).1, ?_⟩
  cases vector with
  | nil => cases named
  | cons first rest =>
      cases named
      exact rfl

/-- The name of a living pid is that of its newest record. -/
theorem Represents.getProcessName_eq {tracker : ProcessTracker Trace}
    (represents : tracker.Represents) {pid : Nat} {vector : List (ProcessRecord Trace)}
    (member : vector ∈ tracker.procs) (isOf : IsOf pid vector) :
    ∃ first ∈ vector, tracker.getProcessName pid = .ok first.process.comm := by
  rw [getProcessName, represents.filter_eq member isOf]
  cases vector with
  | nil => exact absurd isOf id
  | cons first rest => exact ⟨first, List.mem_cons_self, rfl⟩

/-! ## Whole runs -/

inductive TrackerEvent (Trace : Type) where
  | addProcessRecord (now : Nat) (process : IProcess Trace)
  | cleanTerminated (status : Nat → Option ProcessStatus)

def step (tracker : ProcessTracker Trace) : TrackerEvent Trace → ProcessTracker Trace
  | .addProcessRecord now process => tracker.addProcessRecord now process
  | .cleanTerminated status => tracker.cleanTerminatedProcessRecordsVectors status

def empty (nbCores maxRecordsPerProcess : Nat) : ProcessTracker Trace :=
  ⟨[], nbCores, maxRecordsPerProcess⟩

theorem maxRecordsPerProcess_step (tracker : ProcessTracker Trace) (event : TrackerEvent Trace) :
    (tracker.step event).maxRecordsPerProcess = tracker.maxRecordsPerProcess := by
  cases event <;> rfl

theorem represents_run {maxRecordsPerProcess : Nat} (positive : 1 ≤ maxRecordsPerProcess)
    (nbCores : Nat) (events : List (TrackerEvent Trace)) :
    (run step (empty nbCores maxRecordsPerProcess) events).Represents ∧
      (run step (empty nbCores maxRecordsPerProcess) events).maxRecordsPerProcess =
        maxRecordsPerProcess := by
  refine invariant_run (fun tracker : ProcessTracker Trace =>
    tracker.Represents ∧ tracker.maxRecordsPerProcess = maxRecordsPerProcess) ?_ ?_ events
  · rintro tracker event ⟨represents, limit⟩
    refine ⟨?_, by rw [maxRecordsPerProcess_step, limit]⟩
    cases event with
    | addProcessRecord now process =>
        exact represents.addProcessRecord (by rw [limit]; exact positive) now process
    | cleanTerminated status => exact represents.cleanTerminated status
  · exact ⟨⟨List.Pairwise.nil, fun _ member => absurd member List.not_mem_nil,
      fun _ member => absurd member List.not_mem_nil⟩, rfl⟩

/-- After every run the vectors are separate, uniform and within the limit, each pid leads
`find_records` to its one vector, and `get_process_name` returns the name of every living
pid. -/
theorem tracker_representation (nbCores : Nat) {maxRecordsPerProcess : Nat}
    (positive : 1 ≤ maxRecordsPerProcess) (events : List (TrackerEvent Trace)) :
    let tracker := run step (empty nbCores maxRecordsPerProcess) events
    tracker.procs.Pairwise SeparatePids ∧
      (∀ vector ∈ tracker.procs, Uniform vector) ∧
      (∀ vector ∈ tracker.procs, vector.length ≤ maxRecordsPerProcess) ∧
      (∀ pid, ∀ vector ∈ tracker.procs, IsOf pid vector →
        tracker.findRecords pid = some vector) ∧
      ∀ status, ∀ pid ∈ tracker.getAlivePids status,
        ∃ name, tracker.getProcessName pid = .ok name := by
  intro tracker
  obtain ⟨represents, limit⟩ := represents_run positive nbCores events
  refine ⟨represents.separate, represents.uniform, ?_, ?_, ?_⟩
  · intro vector member
    rw [← limit]
    exact represents.bounded vector member
  · intro pid vector member isOf
    exact represents.findRecords_eq member isOf
  · intro status pid alive
    obtain ⟨vector, member, isOf⟩ := exists_isOf_of_mem_getAlivePids alive
    obtain ⟨first, _, named⟩ := represents.getProcessName_eq member isOf
    exact ⟨first.process.comm, named⟩

/-- A process as seen with the given pid and executable. -/
def seenProcess (pid : Nat) (comm : Text) : IProcess Unit :=
  ⟨pid, comm, 0, 0, none, 0, 0, 0, 0, 0, 0, ()⟩

/-- With a limit of one record: two pids, a third record that changes the executable, a
cleaning that ends the first pid, and a record of it again. -/
theorem tracker_representation_limit_one :
    let tracker := run step (empty 2 1)
      [.addProcessRecord 10 (seenProcess 7 ['a']), .addProcessRecord 11 (seenProcess 8 ['b']),
        .addProcessRecord 5 (seenProcess 8 ['c']),
        .cleanTerminated (fun pid => if pid = 8 then some .run else none),
        .addProcessRecord 12 (seenProcess 7 ['d'])]
    tracker.procs.map List.length = [1, 1] ∧ ∀ status, ∀ pid ∈ tracker.getAlivePids status,
      ∃ name, tracker.getProcessName pid = .ok name :=
  ⟨by decide, (tracker_representation 2 (Nat.le_refl 1) _).2.2.2.2⟩

end ProcessTracker

end ScaphandreFormal.Sensors
