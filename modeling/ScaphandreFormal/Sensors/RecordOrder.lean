import ScaphandreFormal.Sensors.Attribution
import ScaphandreFormal.Sensors.TrackerInvariant
import Mathlib.Data.List.Induction

/-!
# The order of the records of a process

A record is placed at the front of the vector of its pid, but the surplus record
is found by sorting on the wall clock.  Both orders agree as long as the clock
does not step back.  Once a vector is full, a step back makes the sort move the
records, or drop one that is not the oldest.
-/

namespace ScaphandreFormal.Sensors

open Foundation

variable {Trace : Type}

namespace ProcessTracker

/-! ## Eviction -/

instance : Std.Total fun a b : ProcessRecord Trace => b.timestamp ≤ a.timestamp :=
  ⟨fun a b => Nat.le_total b.timestamp a.timestamp⟩

instance : IsTrans (ProcessRecord Trace) fun a b => b.timestamp ≤ a.timestamp :=
  ⟨fun _ _ _ first second => Nat.le_trans second first⟩

/-- The sort leaves all but the last record in place just when there is nothing to sort. -/
theorem dropLast_sortNewestFirst_iff (records : List (ProcessRecord Trace)) :
    (sortNewestFirst records).dropLast = records.dropLast ↔
      records.Pairwise fun a b => b.timestamp ≤ a.timestamp := by
  constructor
  · intro same
    have perm : (sortNewestFirst records).Perm records := List.perm_insertionSort _ _
    have sorted : (sortNewestFirst records).Pairwise fun a b => b.timestamp ≤ a.timestamp :=
      List.pairwise_insertionSort _ _
    -- What the sort has last must be what was last, so that it moved nothing.
    rcases List.eq_nil_or_concat records with rfl | ⟨older, last, rfl⟩
    · exact List.Pairwise.nil
    · rcases List.eq_nil_or_concat (sortNewestFirst (older.concat last)) with
        nothing | ⟨kept, popped, shape⟩
      · rw [nothing] at perm
        exact absurd perm.nil_eq (by simp)
      · simp only [List.concat_eq_append] at shape same perm sorted ⊢
        rw [shape] at same perm sorted
        rw [List.dropLast_concat, List.dropLast_concat] at same
        rw [same, List.perm_append_left_iff, List.singleton_perm_singleton] at perm
        rwa [same, perm] at sorted
  · intro sorted
    rw [sortNewestFirst, sorted.insertionSort_eq]

theorem insertRecord_of_same_comm {maxRecords : Nat} {record : ProcessRecord Trace}
    {vector : List (ProcessRecord Trace)}
    (unchanged : ∀ first ∈ vector.head?, record.process.comm = first.process.comm) :
    insertRecord maxRecords record vector =
      cleanOldProcessRecords (record :: vector) maxRecords := by
  cases vector with
  | nil => rfl
  | cons first rest => simp [insertRecord, unchanged first rfl]

/-- The records of a pid stay as they were added: there is no surplus, or the clock never
stepped back. -/
def InOrder (maxRecords : Nat) (added : List (ProcessRecord Trace)) : Prop :=
  added.length ≤ maxRecords ∨ added.Pairwise fun a b => a.timestamp ≤ b.timestamp

instance (maxRecords : Nat) (added : List (ProcessRecord Trace)) :
    Decidable (InOrder maxRecords added) :=
  inferInstanceAs (Decidable (_ ∨ _))

theorem InOrder.of_concat {maxRecords : Nat} {added : List (ProcessRecord Trace)}
    {record : ProcessRecord Trace} (inOrder : InOrder maxRecords (added ++ [record])) :
    InOrder maxRecords added := by
  rcases inOrder with short | sorted
  · rw [List.length_append, List.length_singleton] at short
    exact Or.inl (by omega)
  · exact Or.inr (List.pairwise_append.mp sorted).1

/-- The newest records and all records are sorted alike once the older ones are. -/
theorem pairwise_take_iff {maxRecords : Nat} (positive : 1 ≤ maxRecords)
    {older : List (ProcessRecord Trace)} (record : ProcessRecord Trace)
    (sorted : older.length ≤ maxRecords ∨ older.Pairwise fun a b => b.timestamp ≤ a.timestamp) :
    ((record :: older.take maxRecords).Pairwise fun a b => b.timestamp ≤ a.timestamp) ↔
      (record :: older).Pairwise fun a b => b.timestamp ≤ a.timestamp := by
  constructor
  · intro window
    rcases sorted with short | sorted
    · rwa [List.take_of_length_le short] at window
    · obtain ⟨ahead, _⟩ := List.pairwise_cons.mp window
      refine List.pairwise_cons.mpr ⟨?_, sorted⟩
      cases older with
      | nil => exact fun _ absent => absurd absent List.not_mem_nil
      | cons next rest =>
          obtain ⟨behind, _⟩ := List.pairwise_cons.mp sorted
          have next_le : next.timestamp ≤ record.timestamp := by
            apply ahead next
            rw [List.take_cons positive]
            exact List.mem_cons_self
          intro other member
          rcases List.mem_cons.mp member with rfl | later
          · exact next_le
          · exact (behind other later).trans next_le
  · intro all
    exact all.sublist ((List.take_sublist _ _).cons_cons record)

/-- A vector of the newest records stays one just when the records are still in order. -/
theorem cleanOldProcessRecords_cons_iff {maxRecords : Nat} (positive : 1 ≤ maxRecords)
    {added : List (ProcessRecord Trace)} (inOrder : InOrder maxRecords added)
    (record : ProcessRecord Trace) :
    cleanOldProcessRecords (record :: added.reverse.take maxRecords) maxRecords =
        (added ++ [record]).reverse.take maxRecords ↔
      InOrder maxRecords (added ++ [record]) := by
  have longer : (added ++ [record]).length = added.length + 1 := by simp
  rw [List.reverse_append, List.reverse_singleton, List.singleton_append]
  rcases Nat.lt_or_ge added.length maxRecords with room | full
  · have short : added.reverse.length ≤ maxRecords := by simpa using room.le
    refine iff_of_true ?_ (Or.inl (by omega))
    rw [List.take_of_length_le short, cleanOldProcessRecords, List.length_cons, List.length_reverse,
      Nat.sub_eq_zero_of_le room, popOldest, List.take_of_length_le]
    rw [List.length_cons, List.length_reverse]
    exact room
  · have surplus : (record :: added.reverse.take maxRecords).length = maxRecords + 1 := by
      simp [full]
    have newest : (record :: added.reverse).take maxRecords =
        (record :: added.reverse.take maxRecords).dropLast := by
      rw [List.dropLast_eq_take, surplus, Nat.add_sub_cancel, ← List.take_succ_cons, List.take_take,
        Nat.min_eq_left (Nat.le_succ _)]
    have sorted : added.reverse.length ≤ maxRecords ∨
        added.reverse.Pairwise fun a b => b.timestamp ≤ a.timestamp := by
      rw [List.length_reverse, List.pairwise_reverse]
      exact inOrder
    rw [cleanOldProcessRecords, surplus, Nat.add_sub_cancel_left, popOldest, popOldest, newest,
      dropLast_sortNewestFirst_iff, pairwise_take_iff positive record sorted]
    rw [InOrder, longer, ← List.pairwise_reverse, List.reverse_cons, List.reverse_reverse]
    exact (or_iff_right (by omega)).symm

/-! ## Adding records of several processes -/

/-- The records that calls of `add_process_record` make for a pid, in their order. -/
def recordsOf (pid : Nat) (calls : List (Nat × IProcess Trace)) : List (ProcessRecord Trace) :=
  (calls.filter fun call => call.2.pid = pid).map fun call => ⟨call.2, call.1⟩

/-- One call, with the reading of the clock. -/
def call (tracker : ProcessTracker Trace) (call : Nat × IProcess Trace) : ProcessTracker Trace :=
  tracker.addProcessRecord call.1 call.2

theorem filter_addToVectors_of_ne {maxRecords pid : Nat} {record : ProcessRecord Trace}
    (other : record.process.pid ≠ pid) {procs : List (List (ProcessRecord Trace))}
    (uniform : ∀ vector ∈ procs, Uniform vector) :
    (addToVectors maxRecords record procs).filter (fun vector => IsOf pid vector) =
      procs.filter fun vector => IsOf pid vector := by
  induction procs with
  | nil => simp [addToVectors, IsOf, other]
  | cons vector rest ih =>
      obtain ⟨here, later⟩ := List.forall_mem_cons.mp uniform
      rw [addToVectors]
      split
      · rename_i isOf
        have oldForeign : ¬ IsOf pid vector := by
          intro isOfPid
          obtain ⟨first, member, same⟩ := exists_mem_of_isOf isOfPid
          exact other ((here.pid_eq isOf member).symm.trans same)
        have newForeign : ¬ IsOf pid (insertRecord maxRecords record vector) := by
          intro isOfPid
          obtain ⟨first, member, same⟩ := exists_mem_of_isOf isOfPid
          exact other ((pid_of_mem_insertRecord here isOf member).symm.trans same)
        rw [List.filter_cons_of_neg (by simpa using newForeign),
          List.filter_cons_of_neg (by simpa using oldForeign)]
      · rw [List.filter_cons, List.filter_cons, ih later]

theorem filter_addToVectors_of_absent {maxRecords pid : Nat} {record : ProcessRecord Trace}
    (same : record.process.pid = pid) {procs : List (List (ProcessRecord Trace))}
    (absent : procs.filter (fun vector => IsOf pid vector) = []) :
    (addToVectors maxRecords record procs).filter (fun vector => IsOf pid vector) =
      [[record]] := by
  induction procs with
  | nil => simp [addToVectors, IsOf, same]
  | cons vector rest ih =>
      rw [List.filter_eq_nil_iff] at absent
      obtain ⟨here, later⟩ := List.forall_mem_cons.mp absent
      rw [addToVectors, if_neg (by simpa [same] using here),
        List.filter_cons_of_neg (by simpa using here)]
      exact ih (List.filter_eq_nil_iff.mpr later)

theorem filter_addToVectors_of_present {maxRecords pid : Nat} {record : ProcessRecord Trace}
    (same : record.process.pid = pid) {procs : List (List (ProcessRecord Trace))}
    {vector : List (ProcessRecord Trace)}
    (present : procs.filter (fun vector => IsOf pid vector) = [vector])
    (stays : IsOf pid (insertRecord maxRecords record vector)) :
    (addToVectors maxRecords record procs).filter (fun vector => IsOf pid vector) =
      [insertRecord maxRecords record vector] := by
  induction procs with
  | nil => simp at present
  | cons first rest ih =>
      rw [addToVectors]
      by_cases isOf : IsOf pid first
      · rw [List.filter_cons_of_pos (by simpa using isOf)] at present
        obtain ⟨rfl, nothing⟩ := List.cons.inj present
        rw [if_pos (by rwa [same]), List.filter_cons_of_pos (by simpa using stays), nothing]
      · rw [List.filter_cons_of_neg (by simpa using isOf)] at present
        rw [if_neg (by rwa [same]), List.filter_cons_of_neg (by simpa using isOf)]
        exact ih present

/-- The one vector of a pid, as a list. -/
theorem Represents.filter_eq_toList {tracker : ProcessTracker Trace}
    (represents : tracker.Represents) (pid : Nat) :
    (tracker.procs.filter fun vector => IsOf pid vector) = (tracker.findRecords pid).toList := by
  cases found : tracker.findRecords pid with
  | some vector =>
      obtain ⟨member, isOf⟩ := findRecords_mem found
      exact represents.filter_eq member isOf
  | none =>
      rw [findRecords, foldl_findRecords, Option.or_none, List.getLast?_eq_none_iff] at found
      exact found

theorem findRecords_of_filter_eq {tracker : ProcessTracker Trace} {pid : Nat}
    {found : Option (List (ProcessRecord Trace))}
    (same : (tracker.procs.filter fun vector => IsOf pid vector) = found.toList) :
    tracker.findRecords pid = found := by
  rw [findRecords, foldl_findRecords, Option.or_none, same]
  cases found <;> rfl

/-- A call for another process leaves the records of a pid alone. -/
theorem findRecords_call_of_ne {tracker : ProcessTracker Trace} (represents : tracker.Represents)
    {pid : Nat} {seen : Nat × IProcess Trace} (other : seen.2.pid ≠ pid) :
    (tracker.call seen).findRecords pid = tracker.findRecords pid := by
  apply findRecords_of_filter_eq
  rw [← represents.filter_eq_toList]
  exact filter_addToVectors_of_ne other represents.uniform

theorem findRecords_call_of_absent {tracker : ProcessTracker Trace}
    (represents : tracker.Represents) {pid : Nat} {seen : Nat × IProcess Trace}
    (same : seen.2.pid = pid) (absent : tracker.findRecords pid = none) :
    (tracker.call seen).findRecords pid = some [⟨seen.2, seen.1⟩] := by
  apply findRecords_of_filter_eq
  refine filter_addToVectors_of_absent same ?_
  rw [represents.filter_eq_toList, absent]
  rfl

/-- The extended vector is still one of the pid. -/
theorem isOf_insertRecord {maxRecords : Nat} (positive : 1 ≤ maxRecords)
    {record : ProcessRecord Trace} {vector : List (ProcessRecord Trace)}
    (uniform : Uniform vector) (isOf : IsOf record.process.pid vector) :
    IsOf record.process.pid (insertRecord maxRecords record vector) := by
  have notEmpty : 0 < (insertRecord maxRecords record vector).length := by
    unfold insertRecord cleanOldProcessRecords
    rw [length_popOldest, List.length_cons]
    omega
  obtain ⟨first, member⟩ := List.exists_mem_of_length_pos notEmpty
  rw [← pid_of_mem_insertRecord uniform isOf member]
  exact (uniform_insertRecord maxRecords uniform isOf).isOf member

theorem findRecords_call_of_present {tracker : ProcessTracker Trace}
    (represents : tracker.Represents) (positive : 1 ≤ tracker.maxRecordsPerProcess) {pid : Nat}
    {seen : Nat × IProcess Trace} (same : seen.2.pid = pid)
    {vector : List (ProcessRecord Trace)} (present : tracker.findRecords pid = some vector) :
    (tracker.call seen).findRecords pid =
      some (insertRecord tracker.maxRecordsPerProcess ⟨seen.2, seen.1⟩ vector) := by
  obtain ⟨member, isOf⟩ := findRecords_mem present
  have uniform := represents.uniform vector member
  subst same
  have stays : IsOf seen.2.pid
      (insertRecord tracker.maxRecordsPerProcess ⟨seen.2, seen.1⟩ vector) :=
    @isOf_insertRecord _ _ positive ⟨seen.2, seen.1⟩ vector uniform isOf
  apply findRecords_of_filter_eq
  refine filter_addToVectors_of_present rfl ?_ stays
  rw [represents.filter_eq_toList, present]
  rfl

/-! ## Newest first -/

/-- The newest of the records, the last one added first. -/
def newest (maxRecords : Nat) (added : List (ProcessRecord Trace)) :
    Option (List (ProcessRecord Trace)) :=
  if added = [] then none else some (added.reverse.take maxRecords)

/-- The vector of the pid holds the newest of the records added for it, newest first; the
last record is the last one added, and the deltas are between it and the one before. -/
structure NewestFirst (F : Type) [Float64 F] (pid : Nat) (added : List (ProcessRecord Trace))
    (tracker : ProcessTracker Trace) : Prop where
  vector : tracker.findRecords pid = newest tracker.maxRecordsPerProcess added
  last : tracker.getProcessLastRecord pid = added.getLast?
  deltas : ∀ previous last, lastTwo added = some (previous, last) →
    let pair : ProcessTracker Trace := { tracker with procs := [[last, previous]] }
    tracker.getProcessCpuTimeDeltaAsPercentage F pid =
        pair.getProcessCpuTimeDeltaAsPercentage F pid ∧
      tracker.getPerCoreCpuTimeDelta pid = pair.getPerCoreCpuTimeDelta pid

theorem pid_of_mem_recordsOf {pid : Nat} {calls : List (Nat × IProcess Trace)}
    {record : ProcessRecord Trace} (member : record ∈ recordsOf pid calls) :
    record.process.pid = pid := by
  obtain ⟨seen, isSeen, rfl⟩ := List.mem_map.mp member
  simpa using (List.mem_filter.mp isSeen).2

/-- The vector decides what the lookups return. -/
theorem newestFirst_iff (F : Type) [Float64 F] {pid : Nat} {tracker : ProcessTracker Trace}
    (enough : 2 ≤ tracker.maxRecordsPerProcess) (calls : List (Nat × IProcess Trace)) :
    NewestFirst F pid (recordsOf pid calls) tracker ↔
      tracker.findRecords pid = newest tracker.maxRecordsPerProcess (recordsOf pid calls) := by
  refine ⟨NewestFirst.vector, fun vector => ⟨vector, ?_, ?_⟩⟩
  · rw [getProcessLastRecord, vector, newest]
    split
    · rename_i nothing
      rw [nothing]
      rfl
    · rw [Option.bind_some, List.head?_take, if_neg (by omega), List.head?_reverse]
  · intro previous last found pair
    obtain ⟨older, listed⟩ := lastTwo_eq_some_iff.mp found
    have isLast : IsOf pid [last, previous] := by
      have member : last ∈ recordsOf pid calls := by simp [listed]
      exact pid_of_mem_recordsOf member
    obtain ⟨more, two⟩ := Nat.exists_eq_add_of_le' enough
    have here : tracker.findRecords pid = some (last :: previous :: older.reverse.take more) := by
      rw [vector, newest, listed, if_neg (by simp), two]
      simp
    have alone : pair.findRecords pid = some [last, previous] := if_pos isLast
    constructor
    · simp only [getProcessCpuTimeDeltaAsPercentage, here, alone]
    · simp only [getPerCoreCpuTimeDelta, here, alone]

theorem recordsOf_concat (pid : Nat) (calls : List (Nat × IProcess Trace))
    (seen : Nat × IProcess Trace) :
    recordsOf pid (calls ++ [seen]) =
      recordsOf pid calls ++ if seen.2.pid = pid then [⟨seen.2, seen.1⟩] else [] := by
  rw [recordsOf, List.filter_append, List.map_append]
  congr 1
  by_cases same : seen.2.pid = pid <;> simp [same]

/-- One more call keeps the newest records first just when its record is in order. -/
theorem findRecords_call_iff {tracker : ProcessTracker Trace} (represents : tracker.Represents)
    (positive : 1 ≤ tracker.maxRecordsPerProcess) {pid : Nat}
    {calls : List (Nat × IProcess Trace)} {seen : Nat × IProcess Trace}
    (unchanged : ∀ record ∈ recordsOf pid (calls ++ [seen]),
      ∀ other ∈ recordsOf pid (calls ++ [seen]), record.process.comm = other.process.comm)
    (inOrder : InOrder tracker.maxRecordsPerProcess (recordsOf pid calls))
    (holds : tracker.findRecords pid = newest tracker.maxRecordsPerProcess (recordsOf pid calls)) :
    (tracker.call seen).findRecords pid =
        newest tracker.maxRecordsPerProcess (recordsOf pid (calls ++ [seen])) ↔
      InOrder tracker.maxRecordsPerProcess (recordsOf pid (calls ++ [seen])) := by
  rw [recordsOf_concat] at unchanged ⊢
  by_cases same : seen.2.pid = pid
  · rw [if_pos same] at unchanged ⊢
    cases before : recordsOf pid calls with
    | nil =>
        rw [before] at holds
        have short : InOrder tracker.maxRecordsPerProcess
            [(⟨seen.2, seen.1⟩ : ProcessRecord Trace)] := Or.inl positive
        refine iff_of_true ?_ short
        rw [findRecords_call_of_absent represents same holds]
        rw [newest, if_neg (by simp), List.nil_append, List.reverse_singleton,
          List.take_of_length_le (by simpa using positive)]
    | cons first rest =>
        rw [← before]
        have notEmpty : recordsOf pid calls ≠ [] := by simp [before]
        rw [newest, if_neg notEmpty] at holds
        rw [findRecords_call_of_present represents positive same holds,
          insertRecord_of_same_comm, newest, if_neg (by simp), Option.some_inj]
        · exact cleanOldProcessRecords_cons_iff positive inOrder _
        · intro other isFirst
          have member : other ∈ recordsOf pid calls :=
            List.mem_reverse.mp (List.mem_of_mem_take (List.mem_of_mem_head? isFirst))
          exact unchanged _ (by simp) other (List.mem_append_left _ member)
  · rw [if_neg same, List.append_nil, findRecords_call_of_ne represents same]
    exact iff_of_true holds inOrder

theorem represents_run_call {start : ProcessTracker Trace} (represents : start.Represents)
    (positive : 1 ≤ start.maxRecordsPerProcess) (calls : List (Nat × IProcess Trace)) :
    (run call start calls).Represents ∧
      (run call start calls).maxRecordsPerProcess = start.maxRecordsPerProcess := by
  refine invariant_run (fun tracker : ProcessTracker Trace => tracker.Represents ∧
    tracker.maxRecordsPerProcess = start.maxRecordsPerProcess) ?_ ⟨represents, rfl⟩ calls
  rintro tracker seen ⟨kept, limit⟩
  exact ⟨kept.addProcessRecord (by rw [limit]; exact positive) _ _, limit⟩

/-- Whatever was tracked before, and whatever other processes are recorded in between: after
each call the newest records of a pid stand first just when there are not more of them than
the limit or the clock never stepped back from one to the next. -/
theorem newestFirst_iff_inOrder (F : Type) [Float64 F] (nbCores : Nat)
    {maxRecordsPerProcess : Nat} (enough : 2 ≤ maxRecordsPerProcess)
    (earlier : List (TrackerEvent Trace)) {pid : Nat}
    (absent : (run step (empty nbCores maxRecordsPerProcess) earlier).findRecords pid = none)
    (calls : List (Nat × IProcess Trace)) (comm : Text)
    (unchanged : ∀ seen ∈ calls, seen.2.pid = pid → seen.2.comm = comm) :
    let start := run step (empty nbCores maxRecordsPerProcess) earlier
    (∀ taken, taken <+: calls →
        NewestFirst F pid (recordsOf pid taken) (run call start taken)) ↔
      InOrder maxRecordsPerProcess (recordsOf pid calls) := by
  intro start
  have positive : 1 ≤ maxRecordsPerProcess := by omega
  obtain ⟨represents, limit⟩ := represents_run positive nbCores earlier
  have limits : ∀ taken, (run call start taken).Represents ∧
      (run call start taken).maxRecordsPerProcess = maxRecordsPerProcess := by
    intro taken
    obtain ⟨kept, same⟩ := represents_run_call represents (by rw [limit]; exact positive) taken
    exact ⟨kept, same.trans limit⟩
  have vectors : ∀ taken, NewestFirst F pid (recordsOf pid taken) (run call start taken) ↔
      (run call start taken).findRecords pid =
        newest maxRecordsPerProcess (recordsOf pid taken) := by
    intro taken
    rw [newestFirst_iff F (by rw [(limits taken).2]; exact enough), (limits taken).2]
  simp only [vectors]
  -- On the calls made so far; the order of the records so far is what the last call needs.
  induction calls using List.reverseRecOn with
  | nil =>
      refine iff_of_true ?_ (Or.inl (Nat.zero_le _))
      intro taken isTaken
      rw [List.prefix_nil.mp isTaken]
      exact absent
  | append_singleton calls seen ih =>
      have before := ih fun other member => unchanged other (List.mem_append_left _ member)
      have sameComm : ∀ record ∈ recordsOf pid (calls ++ [seen]),
          record.process.comm = comm := by
        intro record member
        obtain ⟨made, isMade, rfl⟩ := List.mem_map.mp member
        obtain ⟨isCall, isOf⟩ := List.mem_filter.mp isMade
        exact unchanged made isCall (by simpa using isOf)
      have next := @findRecords_call_iff _ _ (limits calls).1
        (by rw [(limits calls).2]; exact positive) pid calls seen
        fun record isRecord other isOther =>
          (sameComm record isRecord).trans (sameComm other isOther).symm
      rw [(limits calls).2] at next
      constructor
      · intro throughout
        have inOrder := before.mp fun taken isTaken =>
          throughout taken (isTaken.trans (List.prefix_append _ _))
        have whole := throughout (calls ++ [seen]) List.prefix_rfl
        rw [run_concat] at whole
        exact (next inOrder (throughout calls (List.prefix_append _ _))).mp whole
      · intro inOrder
        have orderedBefore : InOrder maxRecordsPerProcess (recordsOf pid calls) := by
          rw [recordsOf_concat] at inOrder
          split at inOrder
          · exact inOrder.of_concat
          · rwa [List.append_nil] at inOrder
        have throughout := before.mpr orderedBefore
        intro taken isTaken
        rcases List.prefix_concat_iff.mp isTaken with rfl | shorter
        · rw [run_concat]
          exact (next orderedBefore (throughout calls List.prefix_rfl)).mpr inOrder
        · exact throughout taken shorter

/-- A repeated reading of the clock and a process recorded in between, with a limit of two
records. -/
theorem newestFirst_iff_inOrder_repeated_time :
    let calls := [(10, seenProcess 7 ['a']), (10, seenProcess 8 ['b']), (10, seenProcess 7 ['a']),
      (12, seenProcess 7 ['a'])]
    NewestFirst ExactFloat 7 (recordsOf 7 calls) (run call (empty 1 2) calls) := by
  intro calls
  have unchanged : ∀ seen ∈ calls, seen.2.pid = 7 → seen.2.comm = ['a'] := by decide
  have inOrder : InOrder 2 (recordsOf 7 calls) := by decide
  exact (newestFirst_iff_inOrder ExactFloat 1 (Nat.le_refl 2) [] rfl calls ['a'] unchanged).mpr
    inOrder calls List.prefix_rfl

/-- The clock steps back to 5 when the vector of two records is full: the record just added
is the one that is dropped. -/
theorem not_newestFirst_of_step_back :
    let calls := [(10, seenProcess 7 ['a']), (20, seenProcess 7 ['a']), (5, seenProcess 7 ['a'])]
    (∀ seen ∈ calls, seen.2.pid = 7 ∧ seen.2.comm = ['a']) ∧
      ¬ NewestFirst ExactFloat 7 (recordsOf 7 calls) (run call (empty 1 2) calls) := by
  intro calls
  refine ⟨by decide, ?_⟩
  rintro ⟨-, last, -⟩
  exact absurd last (by decide)

end ProcessTracker

end ScaphandreFormal.Sensors
