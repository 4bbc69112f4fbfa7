import ScaphandreFormal.Foundation.Decimal
import ScaphandreFormal.Foundation.Float64
import Mathlib.Data.List.Sort

/-!
# The process tracker

The tracker keeps, for each pid, a vector of process records, newest first.  A
pid that comes back with another executable starts its vector anew; a pid that
comes back with the same executable goes on with the old one.
-/

namespace ScaphandreFormal.Sensors

open Foundation

/-- What is read of a process at one instant.  `trace` is carried along unread: it is
what an observer notes about the process the data came from. -/
structure IProcess (Trace : Type) where
  pid : Nat
  comm : Text
  cpuBusyTime : Nat
  nodeBusyTime : Nat
  coreBusyTimes : Option (List UInt64)
  virtualMemory : Nat
  memory : Nat
  diskRead : Nat
  diskWritten : Nat
  totalDiskRead : Nat
  totalDiskWritten : Nat
  trace : Trace
  deriving DecidableEq, Repr

structure ProcessRecord (Trace : Type) where
  process : IProcess Trace
  timestamp : Nat
  deriving DecidableEq, Repr

inductive ProcessStatus where
  | idle
  | dead
  | stop
  | run
  | lockBlocked
  | waking
  | wakekill
  | tracing
  | zombie
  | sleep
  | parked
  | uninterruptibleDiskSleep
  | unknown (code : Nat)
  deriving DecidableEq, Repr

structure ProcessTracker (Trace : Type) where
  procs : List (List (ProcessRecord Trace))
  nbCores : Nat
  maxRecordsPerProcess : Nat
  deriving DecidableEq, Repr

variable {Trace : Type}

/-- The vector is not empty and its first record is of `pid`. -/
def IsOf (pid : Nat) : List (ProcessRecord Trace) → Prop
  | [] => False
  | first :: _ => first.process.pid = pid

instance (pid : Nat) (vector : List (ProcessRecord Trace)) : Decidable (IsOf pid vector) :=
  match vector with
  | [] => isFalse (fun h => h)
  | _ :: _ => inferInstanceAs (Decidable (_ = _))

namespace ProcessTracker

/-! ## Adding and cleaning -/

/-- The stable sort of a vector by descending timestamp. -/
def sortNewestFirst (records : List (ProcessRecord Trace)) : List (ProcessRecord Trace) :=
  records.insertionSort fun a b => b.timestamp ≤ a.timestamp

/-- `passes` times: sort, then pop the last. -/
def popOldest : Nat → List (ProcessRecord Trace) → List (ProcessRecord Trace)
  | 0, records => records
  | passes + 1, records => popOldest passes (sortNewestFirst records).dropLast

def cleanOldProcessRecords (records : List (ProcessRecord Trace)) (maxRecordsPerProcess : Nat) :
    List (ProcessRecord Trace) :=
  popOldest (records.length - maxRecordsPerProcess) records

/-- The vector of a pid with one more record: emptied first when the executable is another
one. -/
def insertRecord (maxRecordsPerProcess : Nat) (record : ProcessRecord Trace)
    (vector : List (ProcessRecord Trace)) : List (ProcessRecord Trace) :=
  let kept :=
    match vector with
    | first :: _ => if record.process.comm ≠ first.process.comm then [] else vector
    | [] => vector
  cleanOldProcessRecords (record :: kept) maxRecordsPerProcess

/-- The record goes to the first vector of its pid, or to a new one at the end. -/
def addToVectors (maxRecordsPerProcess : Nat) (record : ProcessRecord Trace) :
    List (List (ProcessRecord Trace)) → List (List (ProcessRecord Trace))
  | [] => [[record]]
  | vector :: rest =>
      if IsOf record.process.pid vector then
        insertRecord maxRecordsPerProcess record vector :: rest
      else vector :: addToVectors maxRecordsPerProcess record rest

/-- `add_process_record`, with `now` for the clock that `ProcessRecord::new` reads. -/
def addProcessRecord (now : Nat) (process : IProcess Trace) (tracker : ProcessTracker Trace) :
    ProcessTracker Trace :=
  { tracker with
    procs := addToVectors tracker.maxRecordsPerProcess ⟨process, now⟩ tracker.procs }

/-- The loop of `drop_empty_process_records_vectors` at the indices it visits. -/
def dropEmptyAt : List Nat → List (List (ProcessRecord Trace)) → List (List (ProcessRecord Trace))
  | [], procs => procs
  | index :: rest, procs =>
      match procs[index]? with
      | some [] => dropEmptyAt rest (procs.eraseIdx index)
      | _ => dropEmptyAt rest procs

def dropEmptyProcessRecordsVectors (procs : List (List (ProcessRecord Trace))) :
    List (List (ProcessRecord Trace)) :=
  dropEmptyAt (List.range (procs.length - 1)) procs

/-- A vector is emptied when its process is stopped or no longer in the table. -/
def cleanVector (status : Nat → Option ProcessStatus) (vector : List (ProcessRecord Trace)) :
    List (ProcessRecord Trace) :=
  match vector with
  | [] => []
  | first :: _ =>
      match status first.process.pid with
      | some .stop => []
      | some _ => vector
      | none => []

def cleanTerminatedProcessRecordsVectors (status : Nat → Option ProcessStatus)
    (tracker : ProcessTracker Trace) : ProcessTracker Trace :=
  { tracker with
    procs := dropEmptyProcessRecordsVectors (tracker.procs.map (cleanVector status)) }

/-! ## Reading -/

/-- The last vector of the pid. -/
def findRecords (tracker : ProcessTracker Trace) (pid : Nat) :
    Option (List (ProcessRecord Trace)) :=
  tracker.procs.foldl (fun refer vector => if IsOf pid vector then some vector else refer) none

def getProcessLastRecord (tracker : ProcessTracker Trace) (pid : Nat) :
    Option (ProcessRecord Trace) :=
  (tracker.findRecords pid).bind List.head?

def getPerCoreCpuTimeDelta (tracker : ProcessTracker Trace) (pid : Nat) : Option (List UInt64) :=
  match tracker.findRecords pid with
  | some (last :: prev :: _) =>
      match last.process.coreBusyTimes, prev.process.coreBusyTimes with
      | some lastCoreTimes, some prevCoreTimes =>
          if prevCoreTimes.length = lastCoreTimes.length then
            some (prevCoreTimes.zipWith (fun previous current => current - previous) lastCoreTimes)
          else none
      | _, _ => none
  | _ => none

/-! ## What each operation does to the vectors -/

theorem popOldest_of_sorted (passes : Nat) (records : List (ProcessRecord Trace))
    (sorted : records.Pairwise fun a b => b.timestamp ≤ a.timestamp) :
    popOldest passes records = records.take (records.length - passes) := by
  induction passes generalizing records with
  | zero => simp [popOldest]
  | succ passes ih =>
      have already : sortNewestFirst records = records := sorted.insertionSort_eq
      rw [popOldest, already, ih _ (sorted.sublist records.dropLast_sublist),
        List.dropLast_eq_take, List.take_take, List.length_take]
      congr 1
      omega

/-- On a vector that is newest first, cleaning keeps the newest records in place. -/
theorem cleanOldProcessRecords_of_sorted {records : List (ProcessRecord Trace)}
    (sorted : records.Pairwise fun a b => b.timestamp ≤ a.timestamp) (maxRecords : Nat) :
    cleanOldProcessRecords records maxRecords = records.take maxRecords := by
  rw [cleanOldProcessRecords, popOldest_of_sorted _ _ sorted]
  rcases Nat.le_total records.length maxRecords with short | long
  · rw [List.take_of_length_le (by omega), List.take_of_length_le short]
  · congr 1
    omega

/-- The vector that a record of `pid` would be added to. -/
def vectorOf (tracker : ProcessTracker Trace) (pid : Nat) : Option (List (ProcessRecord Trace)) :=
  tracker.procs.find? fun vector => IsOf pid vector

/-- A vector after an addition is an old one, the extended vector of the pid, or new. -/
theorem mem_addToVectors {maxRecords : Nat} {record : ProcessRecord Trace}
    {procs : List (List (ProcessRecord Trace))} {vector : List (ProcessRecord Trace)}
    (member : vector ∈ addToVectors maxRecords record procs) :
    vector ∈ procs ∨ vector = [record] ∨
      ∃ old ∈ procs.find? fun v => IsOf record.process.pid v,
        vector = insertRecord maxRecords record old := by
  induction procs with
  | nil => exact Or.inr (Or.inl (List.mem_singleton.mp member))
  | cons first rest ih =>
      rw [addToVectors] at member
      split at member
      · rename_i isOf
        rcases List.mem_cons.mp member with rfl | old
        · refine Or.inr (Or.inr ⟨first, ?_, rfl⟩)
          simp [isOf]
        · exact Or.inl (List.mem_cons_of_mem _ old)
      · rename_i isNotOf
        rcases List.mem_cons.mp member with rfl | later
        · exact Or.inl List.mem_cons_self
        · rcases ih later with old | new | ⟨old, found, extended⟩
          · exact Or.inl (List.mem_cons_of_mem _ old)
          · exact Or.inr (Or.inl new)
          · refine Or.inr (Or.inr ⟨old, ?_, extended⟩)
            rw [List.find?_cons_of_neg (by simpa using isNotOf)]
            exact found

theorem mem_dropEmptyAt {indices : List Nat} {procs : List (List (ProcessRecord Trace))}
    {vector : List (ProcessRecord Trace)} (member : vector ∈ dropEmptyAt indices procs) :
    vector ∈ procs := by
  induction indices generalizing procs with
  | nil => exact member
  | cons index rest ih =>
      rw [dropEmptyAt] at member
      split at member
      · exact List.mem_of_mem_eraseIdx (ih member)
      · exact ih member

/-- Cleaning leaves only vectors that were there before, or empty ones. -/
theorem mem_cleanTerminated {status : Nat → Option ProcessStatus}
    {tracker : ProcessTracker Trace} {vector : List (ProcessRecord Trace)}
    (member : vector ∈ (tracker.cleanTerminatedProcessRecordsVectors status).procs) :
    vector = [] ∨ vector ∈ tracker.procs := by
  obtain ⟨old, isOld, rfl⟩ := List.mem_map.mp (mem_dropEmptyAt member)
  unfold cleanVector
  split
  · exact Or.inl rfl
  · split
    · exact Or.inl rfl
    · exact Or.inr isOld
    · exact Or.inl rfl

theorem findRecords_mem {tracker : ProcessTracker Trace} {pid : Nat}
    {vector : List (ProcessRecord Trace)} (found : tracker.findRecords pid = some vector) :
    vector ∈ tracker.procs ∧ IsOf pid vector := by
  have scan : ∀ (procs : List (List (ProcessRecord Trace))) start,
      procs.foldl (fun refer v => if IsOf pid v then some v else refer) start = some vector →
        start = some vector ∨ vector ∈ procs ∧ IsOf pid vector := by
    intro procs
    induction procs with
    | nil => exact fun _ same => Or.inl same
    | cons first rest ih =>
        intro start result
        rw [List.foldl_cons] at result
        rcases ih _ result with here | ⟨later, isOf⟩
        · split at here
          · rename_i isOf
            cases here
            exact Or.inr ⟨List.mem_cons_self, isOf⟩
          · exact Or.inl here
        · exact Or.inr ⟨List.mem_cons_of_mem _ later, isOf⟩
  exact (scan tracker.procs none found).resolve_left (fun absent => nomatch absent)

end ProcessTracker

end ScaphandreFormal.Sensors
