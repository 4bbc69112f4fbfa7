import ScaphandreFormal.Foundation.Columns
import ScaphandreFormal.Sensors.CoreDistribution
import ScaphandreFormal.Sensors.TrackerInvariant

/-!
# Vectors with an entry for each core

Powers, coefficients, proportions and times of the cores are vectors that are built apart:
some are sorted in each socket, put beside the ids, joined and sorted again, others are read
off the cores once these are joined and sorted.  Ids may occur in several sockets, so that the
order rests on the sorts being stable.  All the vectors are shown to be columns of one table
with a row for each core of each socket.

The times of a process are indexed by the id of the core.  They come from a map that has one
slot for each CPU, and the ids stay below the number of the slots.
-/

namespace ScaphandreFormal.Sensors

open Foundation

variable {F Trace : Type} [Float64 F]

/-! ## The table of the cores -/

/-- The part that a coefficient has of all of them. -/
def coefPart (coefs : List F) (coef : F) : F :=
  if Float64.isZero (Float64.sum coefs) then Float64.ofU64 0
  else Float64.div coef (Float64.sum coefs)

/-- The power of the core, when its socket has one. -/
def CPUSocket.corePower (now : Nat) (socket : CPUSocket F) (core : CPUCore F) : Option F :=
  ((socket.getRecordsDiffPowerMicrowattsPerDomain now "core".toList).bind
    fun r => parseU64 r.value).map fun conso =>
      Float64.mul (coefPart socket.getCoreCoefs core.coefficient) (Float64.ofU64 conso)

namespace Topology

/-- Each core with its socket, in the order of the sockets. -/
def socketRows (topology : Topology F Trace) : List (CPUSocket F × CPUCore F) :=
  topology.sockets.flatMap fun socket => socket.getCores.map fun core => (socket, core)

/-- Each core with its socket, in the order of the ids. -/
def coreRows (topology : Topology F Trace) : List (CPUSocket F × CPUCore F) :=
  sortById (fun row => row.2.id) topology.socketRows

/-- How many cores there are in all sockets. -/
def coreCount (topology : Topology F Trace) : Nat :=
  (topology.sockets.map fun socket => socket.cpuCores.length).sum

/-- The share of the process on the core by the core times. -/
def timedShare (deltas : List UInt64) (diff : MultiValuedRecord Text) (core : CPUCore F) :
    Option F :=
  if 0 < totalNsOf diff core then
    (deltas[core.id]?).map fun delta =>
      Float64.min (Float64.div (Float64.ofU64 delta.toNat)
        (Float64.ofU64 (totalNsOf diff core))) (Float64.ofU64 1)
  else some (Float64.ofU64 0)

/-- The share of the process on the core, by either method. -/
def processShare (topology : Topology F Trace) (pid : Nat) (core : CPUCore F) : Option F :=
  match topology.procTracker.getPerCoreCpuTimeDelta pid, topology.getCpuTimeDiff with
  | some deltas, some diff => timedShare deltas diff core
  | _, _ => (topology.procTracker.getProcessCpuTimeDeltaAsPercentage F pid).map
      fun percentage => fallbackProportion percentage core

omit [Float64 F] in
/-- The table has every core of every socket once. -/
theorem coreRows_perm (topology : Topology F Trace) :
    topology.coreRows.Perm (topology.sockets.flatMap fun socket =>
      socket.cpuCores.map fun core => (socket, core)) := by
  refine (sortById_perm _ _).trans ?_
  refine List.Perm.flatMap_left _ fun socket _ => ?_
  exact (sortById_perm CPUCore.id socket.cpuCores).map _

omit [Float64 F] in
theorem length_coreRows (topology : Topology F Trace) :
    topology.coreRows.length = topology.coreCount := by
  rw [topology.coreRows_perm.length_eq, List.length_flatMap]
  simp only [List.length_map]
  rfl

omit [Float64 F] in
theorem getCores_eq (topology : Topology F Trace) :
    topology.getCores = topology.coreRows.map Prod.snd := by
  have joined : topology.socketRows.map Prod.snd = topology.sockets.flatMap CPUSocket.getCores := by
    simp [socketRows, List.map_flatMap, Function.comp_def]
  rw [getCores, ← joined, coreRows]
  exact (map_sortById Prod.snd CPUCore.id topology.socketRows).symm

omit [Float64 F] in
theorem mem_of_mem_getCores {topology : Topology F Trace} {core : CPUCore F}
    (member : core ∈ topology.getCores) : ∃ socket ∈ topology.sockets, core ∈ socket.cpuCores := by
  rw [getCores_eq] at member
  obtain ⟨row, isRow, rfl⟩ := List.mem_map.mp member
  obtain ⟨socket, isSocket, inSocket⟩ := List.mem_flatMap.mp
    (topology.coreRows_perm.mem_iff.mp isRow)
  obtain ⟨core, isCore, rfl⟩ := List.mem_map.mp inSocket
  exact ⟨socket, isSocket, isCore⟩

/-! ## Vectors sorted with the ids -/

omit [Float64 F] in
/-- Values that stand beside the ids are a column after the sort by the ids. -/
theorem isColumn_sorted {Value : Type} {topology : Topology F Trace} {v : List (Nat × Value)}
    {entry : CPUSocket F × CPUCore F → Option Value}
    (joined : v.map (fun pair => (pair.1, some pair.2)) =
      topology.socketRows.map fun row => (row.2.id, entry row)) :
    IsColumn topology.coreRows entry ((sortById Prod.fst v).map Prod.snd) := by
  have sorted : (sortById Prod.fst v).map (fun pair => (pair.1, some pair.2)) =
      topology.coreRows.map fun row => (row.2.id, entry row) := by
    calc (sortById Prod.fst v).map (fun pair => (pair.1, some pair.2))
        = sortById Prod.fst (v.map fun pair => (pair.1, some pair.2)) :=
          map_sortById (fun pair : Nat × Value => (pair.1, some pair.2)) Prod.fst v
      _ = sortById Prod.fst (topology.socketRows.map fun row => (row.2.id, entry row)) := by
          rw [joined]
      _ = topology.coreRows.map fun row => (row.2.id, entry row) :=
          (map_sortById (fun row : CPUSocket F × CPUCore F => (row.2.id, entry row)) Prod.fst
            topology.socketRows).symm
  have values := congrArg (List.map Prod.snd) sorted
  rw [List.map_map, List.map_map] at values
  rw [isColumn_iff, List.map_map]
  exact values.symm

end Topology

namespace CPUSocket

omit [Float64 F] in
/-- A vector of one socket beside the ids of its cores. -/
theorem zip_ids {Value : Type} (socket : CPUSocket F) {entry : CPUCore F → Option Value}
    {values : List Value} (column : IsColumn socket.getCores entry values) :
    ((socket.getCores.map CPUCore.id).zip values).map (fun pair => (pair.1, some pair.2)) =
      socket.getCores.map fun core => (core.id, entry core) := by
  have cells := isColumn_iff.mp column
  have pairs : ((socket.getCores.map CPUCore.id).zip values).map
        (fun pair => (pair.1, some pair.2)) =
      (socket.getCores.map CPUCore.id).zip (values.map some) := by
    rw [List.zip_map_right]
    rfl
  rw [pairs, ← cells]
  exact List.zip_map'

theorem isColumn_coefs (socket : CPUSocket F) :
    IsColumn socket.getCores (fun core => some core.coefficient) socket.getCoreCoefs := by
  rw [getCoreCoefs_eq]
  exact isColumn_map _ _

theorem isColumn_proportions (socket : CPUSocket F) :
    IsColumn socket.getCores (fun core => some (coefPart socket.getCoreCoefs core.coefficient))
      socket.getCoreProportions :=
  socket.isColumn_coefs.map (coefPart socket.getCoreCoefs)

theorem isColumn_powers {now : Nat} {socket : CPUSocket F} {record : MultiValuedRecord F}
    (read : socket.getProportionalCoreDiffPowerMicrowatts now = some record) :
    IsColumn socket.getCores (socket.corePower now) record.values := by
  unfold getProportionalCoreDiffPowerMicrowatts at read
  split at read
  · rename_i conso power
    cases read
    have energies := socket.isColumn_proportions.map
      fun proportion => Float64.mul proportion (Float64.ofU64 conso)
    refine energies.congr fun core _ => ?_
    rw [corePower, power]
    rfl
  · cases read

end CPUSocket

namespace Topology

/-- The loop over the sockets leaves the powers beside the ids, socket by socket. -/
theorem joined_powers {now : Nat} {sockets : List (CPUSocket F)} {v : List (Nat × F)}
    (collected : collectCorePowers now sockets = some v) :
    v.map (fun pair => (pair.1, some pair.2)) = sockets.flatMap fun socket =>
      socket.getCores.map fun core => (core.id, socket.corePower now core) := by
  induction sockets generalizing v with
  | nil =>
      cases collected
      rfl
  | cons socket rest ih =>
      unfold collectCorePowers at collected
      split at collected
      · rename_i record read
        obtain ⟨later, collectedLater, rfl⟩ := Option.map_eq_some_iff.mp collected
        rw [List.map_append, List.flatMap_cons, ih collectedLater,
          socket.zip_ids (CPUSocket.isColumn_powers read)]
      · cases collected

theorem isColumn_powers {now : Nat} {topology : Topology F Trace} {record : MultiValuedRecord F}
    (read : topology.getProportionalCoreDiffPowerMicrowatts now = some record) :
    IsColumn topology.coreRows (fun row => row.1.corePower now row.2) record.values := by
  obtain ⟨v, collected, rfl⟩ := Option.map_eq_some_iff.mp read
  apply isColumn_sorted
  rw [joined_powers collected, socketRows, List.map_flatMap]
  simp only [List.map_map]
  rfl

theorem isColumn_coefs (topology : Topology F Trace) :
    IsColumn topology.coreRows (fun row => some row.2.coefficient) topology.getCoreCoefs := by
  apply isColumn_sorted
  rw [socketRows, List.map_flatMap, List.map_flatMap]
  simp only [CPUSocket.zip_ids _ (CPUSocket.isColumn_coefs _), List.map_map]
  rfl

theorem isColumn_proportions (topology : Topology F Trace) :
    IsColumn topology.coreRows
      (fun row => some (coefPart topology.getCoreCoefs row.2.coefficient))
      topology.getCoreProportions :=
  topology.isColumn_coefs.map (coefPart topology.getCoreCoefs)

end Topology

/-! ## Times by slot -/

namespace ProcessTracker

/-- The times of the processes were read from a map with this many slots. -/
def HasSlots (slots : Nat) (tracker : ProcessTracker Trace) : Prop :=
  ∀ vector ∈ tracker.procs, ∀ record ∈ vector, ∀ times ∈ record.process.coreBusyTimes,
    times.length = slots

/-- The times of an added process, if it has any, fill the slots. -/
def FillsSlots (slots : Nat) : TrackerEvent Trace → Prop
  | .addProcessRecord _ process => ∀ times ∈ process.coreBusyTimes, times.length = slots
  | .cleanTerminated _ => True

theorem HasSlots.addProcessRecord {slots : Nat} {tracker : ProcessTracker Trace}
    (slotted : tracker.HasSlots slots) (now : Nat) {process : IProcess Trace}
    (fills : ∀ times ∈ process.coreBusyTimes, times.length = slots) :
    (tracker.addProcessRecord now process).HasSlots slots := by
  intro vector member record isRecord
  rcases mem_addToVectors member with old | rfl | ⟨old, found, rfl⟩
  · exact slotted vector old record isRecord
  · rw [List.mem_singleton.mp isRecord]
    exact fills
  · rcases mem_kept_of_mem_insertRecord isRecord with rfl | ⟨kept, _⟩
    · exact fills
    · exact slotted old (List.mem_of_find?_eq_some found) record kept

theorem HasSlots.cleanTerminated {slots : Nat} {tracker : ProcessTracker Trace}
    (slotted : tracker.HasSlots slots) (status : Nat → Option ProcessStatus) :
    (tracker.cleanTerminatedProcessRecordsVectors status).HasSlots slots := by
  intro vector member record isRecord
  rcases mem_cleanTerminated member with rfl | old
  · cases isRecord
  · exact slotted vector old record isRecord

/-- A tracker that only got times from the map has its slots. -/
theorem hasSlots_run {slots : Nat} (nbCores maxRecordsPerProcess : Nat)
    {events : List (TrackerEvent Trace)} (fill : ∀ event ∈ events, FillsSlots slots event) :
    (run step (empty nbCores maxRecordsPerProcess) events).HasSlots slots := by
  have kept : ∀ tracker : ProcessTracker Trace, tracker.HasSlots slots →
      (run step tracker events).HasSlots slots := by
    induction events with
    | nil => exact fun _ slotted => slotted
    | cons event rest ih =>
        obtain ⟨here, later⟩ := List.forall_mem_cons.mp fill
        intro tracker slotted
        refine ih later _ ?_
        cases event with
        | addProcessRecord now process => exact slotted.addProcessRecord now here
        | cleanTerminated status => exact slotted.cleanTerminated status
  exact kept _ fun _ member => absurd member List.not_mem_nil

theorem HasSlots.length_deltas {slots : Nat} {tracker : ProcessTracker Trace}
    (slotted : tracker.HasSlots slots) {pid : Nat} {deltas : List UInt64}
    (timed : tracker.getPerCoreCpuTimeDelta pid = some deltas) : deltas.length = slots := by
  unfold getPerCoreCpuTimeDelta at timed
  split at timed
  · rename_i last prev older found
    have member := (findRecords_mem found).1
    split at timed
    · rename_i lastCoreTimes prevCoreTimes hasLast hasPrev
      have lastLength := slotted _ member last (by simp) _ hasLast
      have prevLength := slotted _ member prev (by simp) _ hasPrev
      rw [if_pos (prevLength.trans lastLength.symm)] at timed
      cases timed
      rw [List.length_zipWith, lastLength, prevLength, Nat.min_self]
    · cases timed
  · cases timed

end ProcessTracker

namespace Topology

omit [Float64 F] in
theorem indexed_eq_ok {Value : Type} {vector : List Value} {index : Nat}
    (inside : index < vector.length) :
    ∃ value, indexed vector index = .ok value ∧ vector[index]? = some value := by
  refine ⟨vector[index], ?_, List.getElem?_eq_getElem inside⟩
  rw [indexed, List.getElem?_eq_getElem inside]

/-- The three vectors of the time data are columns. -/
structure TimeColumns (topology : Topology F Trace) (deltas : List UInt64)
    (diff : MultiValuedRecord Text) (data : CoreTimeData F) : Prop where
  processNs : IsColumn topology.getCores (fun core => (deltas[core.id]?).map UInt64.toNat)
    data.processNs
  totalNs : IsColumn topology.getCores (fun core => some (totalNsOf diff core)) data.totalNs
  proportions : IsColumn topology.getCores (timedShare deltas diff) data.proportions

theorem exists_timeColumns {topology : Topology F Trace} {pid : Nat} {deltas : List UInt64}
    {diff : MultiValuedRecord Text}
    (timed : topology.procTracker.getPerCoreCpuTimeDelta pid = some deltas)
    (differs : topology.getCpuTimeDiff = some diff)
    (inside : ∀ core ∈ topology.getCores, core.id < deltas.length) :
    ∃ data, topology.getProcessCoreTimeData pid = .ok (some data) ∧
      TimeColumns topology deltas diff data := by
  obtain ⟨processNs, readNs, nsColumn⟩ := exists_mapM_isColumn
    fun core member => indexed_eq_ok (inside core member)
  obtain ⟨proportions, readProportions, proportionColumn⟩ :
      ∃ vector : List F, (topology.getCores.mapM fun core =>
        if 0 < totalNsOf diff core then do
          let delta ← indexed deltas core.id
          return Float64.min (Float64.div (Float64.ofU64 delta.toNat)
            (Float64.ofU64 (totalNsOf diff core))) (Float64.ofU64 1)
        else return Float64.ofU64 0) = (.ok vector : Except Panic (List F)) ∧
        IsColumn topology.getCores (timedShare deltas diff) vector := by
    apply exists_mapM_isColumn
    intro core member
    obtain ⟨delta, read, isDelta⟩ := indexed_eq_ok (inside core member)
    unfold timedShare
    by_cases busy : 0 < totalNsOf diff core
    · rw [if_pos busy, if_pos busy, read, isDelta]
      exact ⟨_, rfl, rfl⟩
    · rw [if_neg busy, if_neg busy]
      exact ⟨_, rfl, rfl⟩
  refine ⟨⟨processNs.map UInt64.toNat, topology.getCores.map (totalNsOf diff), proportions⟩, ?_,
    nsColumn.map UInt64.toNat, isColumn_map _ _, proportionColumn⟩
  unfold getProcessCoreTimeData
  simp only [timed, differs, readProportions, readNs]
  rfl

/-- Time data are columns whenever there are any. -/
theorem timeColumns_of_ok {topology : Topology F Trace} {pid : Nat} {data : CoreTimeData F}
    (read : topology.getProcessCoreTimeData pid = .ok (some data)) :
    ∃ deltas diff, topology.procTracker.getPerCoreCpuTimeDelta pid = some deltas ∧
      topology.getCpuTimeDiff = some diff ∧ TimeColumns topology deltas diff data := by
  cases timed : topology.procTracker.getPerCoreCpuTimeDelta pid with
  | none =>
      rw [getProcessCoreTimeData_of_absent (Or.inl timed)] at read
      cases read
  | some deltas =>
      cases differs : topology.getCpuTimeDiff with
      | none =>
          rw [getProcessCoreTimeData_of_absent (Or.inr differs)] at read
          cases read
      | some diff =>
          obtain ⟨found, readFound, columns⟩ := exists_timeColumns timed differs
            (covered_of_ok timed differs read)
          rw [readFound] at read
          cases read
          exact ⟨deltas, diff, rfl, rfl, columns⟩

/-- With time data there are the metrics of the core times. -/
theorem getAllPerProcess_of_timed {now : Nat} {topology : Topology F Trace} {pid : Nat}
    {data : CoreTimeData F} {metrics : List (ProcessMetric F)}
    (timed : topology.getProcessCoreTimeData pid = .ok (some data))
    (read : topology.getAllPerProcess now pid = .ok metrics) :
    ∃ (record : ProcessRecord Trace) (before : List (ProcessMetric F)),
      metrics = before ++ coreTimeMetrics record data := by
  obtain ⟨deltas, _, hasDeltas, _, _⟩ := timeColumns_of_ok timed
  obtain ⟨last, tracked⟩ := getProcessLastRecord_of_timed hasDeltas
  have shared := getProcessCoreProportions_of_some timed
  rcases getAllPerProcess_cases read with
    ⟨untracked, _⟩ | ⟨record, found, percentages, usage, _, isFound, isShared, _, shape⟩
  · rw [tracked] at untracked
    cases untracked
  · rw [timed] at isFound
    rw [shared] at isShared
    cases isFound
    cases isShared
    rcases shape with ⟨absent, _⟩ | ⟨result, whole⟩
    · cases absent
    · refine ⟨record, usage ++ [powerMetric record result], ?_⟩
      rw [whole, List.append_assoc]
      rfl

/-- The time data are columns, or there are none. -/
theorem getProcessCoreTimeData_cases {topology : Topology F Trace} {slots : Nat}
    (slotted : topology.procTracker.HasSlots slots)
    (inside : ∀ core ∈ topology.getCores, core.id < slots) (pid : Nat) :
    (∃ deltas diff data, topology.procTracker.getPerCoreCpuTimeDelta pid = some deltas ∧
      topology.getCpuTimeDiff = some diff ∧
      topology.getProcessCoreTimeData pid = .ok (some data) ∧
      TimeColumns topology deltas diff data) ∨
    ((topology.procTracker.getPerCoreCpuTimeDelta pid = none ∨ topology.getCpuTimeDiff = none) ∧
      topology.getProcessCoreTimeData pid = .ok none) := by
  cases timed : topology.procTracker.getPerCoreCpuTimeDelta pid with
  | none => exact Or.inr ⟨Or.inl rfl, getProcessCoreTimeData_of_absent (Or.inl timed)⟩
  | some deltas =>
      cases differs : topology.getCpuTimeDiff with
      | none => exact Or.inr ⟨Or.inr rfl, getProcessCoreTimeData_of_absent (Or.inr differs)⟩
      | some diff =>
          have length := slotted.length_deltas timed
          obtain ⟨data, read, columns⟩ := exists_timeColumns timed differs
            fun core member => length ▸ inside core member
          exact Or.inl ⟨deltas, diff, data, rfl, rfl, read, columns⟩

/-- The proportions of a process, by either method, are a column. -/
theorem exists_shares {topology : Topology F Trace} {slots : Nat}
    (slotted : topology.procTracker.HasSlots slots)
    (inside : ∀ core ∈ topology.getCores, core.id < slots) (pid : Nat) :
    ∃ percentages, topology.getProcessCoreProportions pid = .ok percentages ∧
      ∀ found ∈ percentages, IsColumn topology.getCores (topology.processShare pid) found := by
  rcases getProcessCoreTimeData_cases slotted inside pid with
    ⟨deltas, diff, data, timed, differs, read, columns⟩ | ⟨untimed, read⟩
  · refine ⟨some data.proportions, getProcessCoreProportions_of_some read, ?_⟩
    rintro found ⟨⟩
    refine columns.proportions.congr fun core _ => ?_
    rw [processShare, timed, differs]
  · refine ⟨_, getProcessCoreProportions_of_none read, ?_⟩
    intro found isFound
    obtain ⟨percentage, isPercentage, rfl⟩ := Option.map_eq_some_iff.mp isFound
    refine (isColumn_map _ _).congr fun core _ => ?_
    unfold processShare
    split
    · rename_i deltas diff timed differs
      rw [timed, differs] at untimed
      exact absurd untimed (by simp)
    · rw [isPercentage]
      rfl

/-- Powers and proportions of equal lengths are multiplied entry by entry. -/
theorem attributedPower_of_length {powers percentages : List F}
    (length : powers.length = percentages.length) :
    attributedPower powers percentages =
      .ok (Float64.sum (List.zipWith Float64.mul powers percentages)) := by
  have pairs := attributedPower_eq Prod.fst Prod.snd (powers.zip percentages)
  rw [List.map_fst_zip length.le, List.map_snd_zip length.ge, List.map_zip_eq_zipWith] at pairs
  exact pairs

/-- No index of `get_all_per_process` leaves its vector. -/
theorem exists_getAllPerProcess {now : Nat} {topology : Topology F Trace} {pid : Nat}
    {data : Option (CoreTimeData F)} {percentages : Option (List F)}
    (timed : topology.getProcessCoreTimeData pid = .ok data)
    (shared : topology.getProcessCoreProportions pid = .ok percentages)
    (attributed : ∀ found ∈ percentages, ∃ result, topology.attributedResult now found =
      .ok result) :
    ∃ metrics, topology.getAllPerProcess now pid = .ok metrics := by
  unfold getAllPerProcess
  cases topology.procTracker.getProcessLastRecord pid with
  | none => exact ⟨_, rfl⟩
  | some record =>
      simp only [timed, shared, bind, Except.bind, pure, Except.pure]
      cases percentages with
      | none => exact ⟨_, rfl⟩
      | some found =>
          obtain ⟨result, isResult⟩ := attributed found rfl
          simp only [isResult]
          exact ⟨_, rfl⟩

/-! ## All vectors together -/

/-- The vector has one entry for each core of all sockets: at every index, `get_cores` has the
core of the row there, and the vector its entry. -/
structure Follows {Value : Type} (topology : Topology F Trace)
    (entry : CPUSocket F × CPUCore F → Option Value) (vector : List Value) : Prop where
  length : vector.length = topology.coreCount
  entries : ∀ (index : Nat) (row : CPUSocket F × CPUCore F),
    topology.coreRows[index]? = some row →
      topology.getCores[index]? = some row.2 ∧ vector[index]? = entry row

omit [Float64 F] in
theorem follows_of_isColumn {Value : Type} {topology : Topology F Trace}
    {entry : CPUSocket F × CPUCore F → Option Value} {vector : List Value}
    (column : IsColumn topology.coreRows entry vector) : topology.Follows entry vector where
  length := column.length.trans topology.length_coreRows
  entries := by
    intro index row atIndex
    refine ⟨?_, column.entries index row atIndex⟩
    rw [getCores_eq, List.getElem?_map, atIndex]
    rfl

omit [Float64 F] in
theorem follows_of_cores {Value : Type} {topology : Topology F Trace}
    {entry : CPUCore F → Option Value} {vector : List Value}
    (column : IsColumn topology.getCores entry vector) :
    topology.Follows (fun row => entry row.2) vector := by
  rw [getCores_eq] at column
  exact follows_of_isColumn (isColumn_of_map column)

/-- The table has each core of each socket once, every vector follows it, and each power is
multiplied by the share of the process on the same core. -/
structure Aligned (now : Nat) (topology : Topology F Trace) (pid : Nat)
    (record : MultiValuedRecord F) : Prop where
  rows : topology.coreRows.Perm (topology.sockets.flatMap fun socket =>
    socket.cpuCores.map fun core => (socket, core))
  powers : topology.Follows (fun row => row.1.corePower now row.2) record.values
  coefs : topology.Follows (fun row => some row.2.coefficient) topology.getCoreCoefs
  proportions : topology.Follows
    (fun row => some (coefPart topology.getCoreCoefs row.2.coefficient))
    topology.getCoreProportions
  times : ∃ data, topology.getProcessCoreTimeData pid = .ok data ∧ ∀ found ∈ data,
    ∃ deltas diff, topology.procTracker.getPerCoreCpuTimeDelta pid = some deltas ∧
      topology.getCpuTimeDiff = some diff ∧
      topology.Follows (fun row => (deltas[row.2.id]?).map UInt64.toNat) found.processNs ∧
      topology.Follows (fun row => some (totalNsOf diff row.2)) found.totalNs ∧
      topology.Follows (fun row => timedShare deltas diff row.2) found.proportions
  shares : ∃ percentages, topology.getProcessCoreProportions pid = .ok percentages ∧
    ∀ found ∈ percentages, topology.Follows (fun row => topology.processShare pid row.2) found ∧
      ∃ parts, topology.attributedResult now found = .ok (Float64.sum parts) ∧
        topology.Follows (fun row => (row.1.corePower now row.2).bind fun power =>
          (topology.processShare pid row.2).map (Float64.mul power)) parts
  metrics : ∃ metrics, topology.getAllPerProcess now pid = .ok metrics

/-- Whenever there are core powers, all vectors with an entry for each core are aligned. -/
theorem aligned_of_read {now : Nat} {topology : Topology F Trace} {record : MultiValuedRecord F}
    {slots : Nat} (read : topology.getProportionalCoreDiffPowerMicrowatts now = some record)
    (inside : ∀ socket ∈ topology.sockets, ∀ core ∈ socket.cpuCores, core.id < slots)
    (slotted : topology.procTracker.HasSlots slots) (pid : Nat) :
    topology.Aligned now pid record := by
  have insideAll : ∀ core ∈ topology.getCores, core.id < slots := by
    intro core member
    obtain ⟨socket, isSocket, isCore⟩ := mem_of_mem_getCores member
    exact inside socket isSocket core isCore
  have powers := isColumn_powers read
  obtain ⟨percentages, shared, columns⟩ := exists_shares slotted insideAll pid
  have attributed : ∀ found ∈ percentages,
      topology.attributedResult now found =
        .ok (Float64.sum (List.zipWith Float64.mul record.values found)) := by
    intro found isFound
    have length : record.values.length = found.length := by
      rw [powers.length, (columns found isFound).length, getCores_eq, List.length_map]
    rw [attributedResult, read]
    exact attributedPower_of_length length
  have times : ∃ data, topology.getProcessCoreTimeData pid = .ok data ∧ ∀ found ∈ data,
      ∃ deltas diff, topology.procTracker.getPerCoreCpuTimeDelta pid = some deltas ∧
        topology.getCpuTimeDiff = some diff ∧ TimeColumns topology deltas diff found := by
    rcases getProcessCoreTimeData_cases slotted insideAll pid with
      ⟨deltas, diff, data, timed, differs, readData, isColumns⟩ | ⟨_, readData⟩
    · refine ⟨_, readData, ?_⟩
      rintro found ⟨⟩
      exact ⟨deltas, diff, timed, differs, isColumns⟩
    · exact ⟨_, readData, nofun⟩
  obtain ⟨data, readData, timeColumns⟩ := times
  refine ⟨topology.coreRows_perm, follows_of_isColumn powers,
    follows_of_isColumn topology.isColumn_coefs, follows_of_isColumn topology.isColumn_proportions,
    ⟨data, readData, ?_⟩, ⟨percentages, shared, ?_⟩, ?_⟩
  · intro found isFound
    obtain ⟨deltas, diff, timed, differs, isColumns⟩ := timeColumns found isFound
    exact ⟨deltas, diff, timed, differs, follows_of_cores isColumns.processNs,
      follows_of_cores isColumns.totalNs, follows_of_cores isColumns.proportions⟩
  · intro found isFound
    have shares := columns found isFound
    refine ⟨follows_of_cores shares, _, attributed found isFound, follows_of_isColumn ?_⟩
    rw [getCores_eq] at shares
    exact powers.zipWith (isColumn_of_map shares) Float64.mul
  · exact exists_getAllPerProcess readData shared
      fun found isFound => ⟨_, attributed found isFound⟩

/-- A process that was seen with these core times. -/
def timedProcess (times : List UInt64) : IProcess Unit :=
  ⟨7, ['a'], 0, 0, some times, 0, 0, 0, 0, 0, 0, ()⟩

/-- Two sockets with a core 0 each, the cores in no order, and a process that was seen twice. -/
def repeatedIds : Topology ExactFloat Unit where
  sockets :=
    [countedSocket (⟨2, [], 1⟩ :: awakeCores), countedSocket [⟨1, [], 1⟩, ⟨0, [], 1⟩]]
  procTracker := run ProcessTracker.step (.empty 3 5)
    [.addProcessRecord 1 (timedProcess [0, 0, 0]),
      .addProcessRecord 2 (timedProcess [5, 10, 0])]
  recordBuffer := []
  bufferMaxKbytes := 1
  activationIdleBuffer := fun _ => []
  cpuTimeBuffer :=
    [⟨1, ["0".toList, "0".toList, "0".toList], []⟩,
      ⟨2, ["20".toList, "10".toList, "30".toList], []⟩]

theorem aligned_of_repeated_ids :
    ∃ record, repeatedIds.getProportionalCoreDiffPowerMicrowatts 0 = some record ∧
      repeatedIds.Aligned 0 7 record := by
  have powered : (repeatedIds.getProportionalCoreDiffPowerMicrowatts 0).isSome = true := by
    decide +kernel
  have inside : ∀ socket ∈ repeatedIds.sockets, ∀ core ∈ socket.cpuCores, core.id < 3 := by
    decide
  have slotted : repeatedIds.procTracker.HasSlots 3 := by
    apply ProcessTracker.hasSlots_run
    rintro event (_ | ⟨_, _ | ⟨_, ⟨⟩⟩⟩) times ⟨⟩ <;> rfl
  obtain ⟨record, read⟩ := Option.isSome_iff_exists.mp powered
  exact ⟨record, read, aligned_of_read read inside slotted 7⟩

end Topology

end ScaphandreFormal.Sensors
