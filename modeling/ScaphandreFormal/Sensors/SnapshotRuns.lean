import ScaphandreFormal.Sensors.SnapshotReads
import ScaphandreFormal.Sensors.TrackerInvariant

/-!
# Consecutive snapshots

Runs of refreshes beside the growing maps.  Each refresh compares its reads with
those of the refresh before.  On every CPU the processes gain at most what the
CPU gains, and their proportions add up to at most one, as long as no refresh
has fewer late credits than the one before it.
-/

namespace ScaphandreFormal.Sensors

open Foundation Ebpf

variable {Trace : Type}

/-! ## The records of a refresh -/

/-- The core times of the record, where it has any, are these reads. -/
def Shows (cpus : Nat) (reads : Nat → Nat → Nat) (record : ProcessRecord Trace) : Prop :=
  ∀ times ∈ record.process.coreBusyTimes,
    times = Host.coreTimes cpus (reads record.process.pid)

/-- A vector that is newest first and whose newest record shows the last reads. -/
structure Ready (cpus : Nat) (reads : Nat → Nat → Nat) (vector : List (ProcessRecord Trace)) :
    Prop where
  sorted : vector.Pairwise fun a b => b.timestamp ≤ a.timestamp
  newest : ∀ record ∈ vector[0]?, Shows cpus reads record

/-- A vector after a refresh, its second record being of the refresh before. -/
structure Refreshed (cpus : Nat) (before after : Nat → Nat → Nat)
    (vector : List (ProcessRecord Trace)) : Prop extends Ready cpus after vector where
  second : ∀ record ∈ vector[1]?, Shows cpus before record

theorem refreshed_singleton {cpus : Nat} {before after : Nat → Nat → Nat}
    {record : ProcessRecord Trace} (read : Shows cpus after record) :
    Refreshed cpus before after [record] where
  sorted := List.pairwise_singleton _ _
  newest := by
    intro first isFirst
    cases isFirst
    exact read
  second := by
    intro second isSecond
    cases isSecond

/-- A record put on top of a vector leaves the record of the refresh before second. -/
theorem Ready.cons {cpus : Nat} {before after : Nat → Nat → Nat}
    {vector : List (ProcessRecord Trace)} (ready : Ready cpus before vector)
    {record : ProcessRecord Trace} (read : Shows cpus after record)
    (inTime : ∀ older ∈ vector, older.timestamp ≤ record.timestamp) :
    Refreshed cpus before after (record :: vector) where
  sorted := List.pairwise_cons.mpr ⟨inTime, ready.sorted⟩
  newest := by
    intro first isFirst
    cases isFirst
    exact read
  second := ready.newest

theorem Refreshed.take {cpus : Nat} {before after : Nat → Nat → Nat}
    {vector : List (ProcessRecord Trace)} (refreshed : Refreshed cpus before after vector)
    (count : Nat) : Refreshed cpus before after (vector.take count) where
  sorted := refreshed.sorted.sublist (List.take_sublist _ _)
  newest := by
    intro record isNewest
    rw [Option.mem_def, List.getElem?_take] at isNewest
    split at isNewest
    · exact refreshed.newest record isNewest
    · cases isNewest
  second := by
    intro record isSecond
    rw [Option.mem_def, List.getElem?_take] at isSecond
    split at isSecond
    · exact refreshed.second record isSecond
    · cases isSecond

theorem Ready.insertRecord {cpus : Nat} {before after : Nat → Nat → Nat}
    {vector : List (ProcessRecord Trace)} (ready : Ready cpus before vector)
    {record : ProcessRecord Trace} (read : Shows cpus after record)
    (inTime : ∀ older ∈ vector, older.timestamp ≤ record.timestamp) (maxRecords : Nat) :
    Refreshed cpus before after (ProcessTracker.insertRecord maxRecords record vector) := by
  have extended : ∀ kept, kept = [] ∨ kept = vector → Refreshed cpus before after
      (ProcessTracker.cleanOldProcessRecords (record :: kept) maxRecords) := by
    rintro kept (rfl | rfl)
    · have single : Refreshed cpus before after [record] := refreshed_singleton read
      rw [ProcessTracker.cleanOldProcessRecords_of_sorted single.sorted]
      exact single.take maxRecords
    · have continued := ready.cons read inTime
      rw [ProcessTracker.cleanOldProcessRecords_of_sorted continued.sorted]
      exact continued.take maxRecords
  apply extended
  cases vector with
  | nil => exact Or.inl rfl
  | cons first rest =>
      simp only
      split
      · exact Or.inl rfl
      · exact Or.inr rfl

namespace ProcessTracker

/-- A vector of another pid is not touched by an addition. -/
theorem Represents.mem_of_other {tracker : ProcessTracker Trace} (represents : tracker.Represents)
    {now : Nat} {process : IProcess Trace} {vector : List (ProcessRecord Trace)}
    (member : vector ∈ (tracker.addProcessRecord now process).procs) {pid : Nat}
    (isOf : IsOf pid vector) (other : pid ≠ process.pid) : vector ∈ tracker.procs := by
  rcases mem_addToVectors member with old | rfl | ⟨old, found, rfl⟩
  · exact old
  · exact absurd isOf.symm other
  · have oldIsOf : IsOf process.pid old := by simpa using List.find?_some found
    have uniform := represents.uniform old (List.mem_of_find?_eq_some found)
    obtain ⟨record, isRecord, named⟩ := exists_mem_of_isOf isOf
    have same : record.process.pid = process.pid :=
      pid_of_mem_insertRecord uniform oldIsOf isRecord
    exact absurd (named.symm.trans same) other

/-- The loop over the processes: the vector of each has its new record on top of the one of
the refresh before, and the vectors of other pids are as they were. -/
theorem refreshed_of_foldl {cpus : Nat} {before after : Nat → Nat → Nat}
    (processes : List (Nat × IProcess Trace)) {tracker : ProcessTracker Trace}
    (represents : tracker.Represents) (positive : 1 ≤ tracker.maxRecordsPerProcess)
    (distinct : (processes.map fun seen => seen.2.pid).Nodup)
    (ready : ∀ seen ∈ processes, ∀ vector ∈ tracker.procs, IsOf seen.2.pid vector →
      Ready cpus before vector ∧ ∀ older ∈ vector, older.timestamp ≤ seen.1)
    (read : ∀ seen ∈ processes, Shows cpus after ⟨seen.2, seen.1⟩) :
    let result := processes.foldl (fun tracker seen => tracker.addProcessRecord seen.1 seen.2)
      tracker
    result.Represents ∧ ∀ vector ∈ result.procs, ∀ pid, IsOf pid vector →
      (pid ∈ processes.map (fun seen => seen.2.pid) → Refreshed cpus before after vector) ∧
        (pid ∉ processes.map (fun seen => seen.2.pid) → vector ∈ tracker.procs) := by
  induction processes generalizing tracker with
  | nil => exact ⟨represents, fun vector member pid _ =>
      ⟨fun absurdity => absurd absurdity List.not_mem_nil, fun _ => member⟩⟩
  | cons seen rest ih =>
      obtain ⟨fresh, distinctRest⟩ := List.nodup_cons.mp distinct
      have added := represents.addProcessRecord positive seen.1 seen.2
      have readyRest : ∀ later ∈ rest, ∀ vector ∈ (tracker.addProcessRecord seen.1 seen.2).procs,
          IsOf later.2.pid vector →
            Ready cpus before vector ∧ ∀ older ∈ vector, older.timestamp ≤ later.1 := by
        intro later isLater vector member isOf
        have other : later.2.pid ≠ seen.2.pid := by
          intro same
          exact fresh (List.mem_map.mpr ⟨later, isLater, same⟩)
        exact ready later (List.mem_cons_of_mem _ isLater) vector
          (represents.mem_of_other member isOf other) isOf
      obtain ⟨representsEnd, vectors⟩ := ih added positive distinctRest readyRest
        fun later isLater => read later (List.mem_cons_of_mem _ isLater)
      refine ⟨representsEnd, ?_⟩
      intro vector member pid isOf
      obtain ⟨listed, unlisted⟩ := vectors vector member pid isOf
      refine ⟨?_, ?_⟩
      · intro isListed
        rcases List.mem_cons.mp isListed with rfl | later
        · have here := read seen List.mem_cons_self
          rcases mem_addToVectors_of_isOf represents.separate (unlisted fresh) isOf with
            rfl | ⟨old, isOld, oldIsOf, rfl⟩
          · exact refreshed_singleton here
          · obtain ⟨oldReady, inTime⟩ := ready seen List.mem_cons_self old isOld oldIsOf
            exact oldReady.insertRecord here inTime _
        · exact listed later
      · intro absent
        obtain ⟨other, absentRest⟩ := not_or.mp fun either => absent (List.mem_cons.mpr either)
        exact represents.mem_of_other (unlisted absentRest) isOf other

/-! ## What two refreshes differ by -/

theorem toNat_coreTimes_sub {cpus cpu : Nat} {before after : Nat → Nat} (inside : cpu < cpus)
    (grown : before cpu ≤ after cpu) (fits : after cpu < 2 ^ 64) :
    (((Host.coreTimes cpus before).zipWith (fun previous current => current - previous)
      (Host.coreTimes cpus after))[cpu]?.getD 0).toNat = after cpu - before cpu := by
  have element : ((Host.coreTimes cpus before).zipWith (fun previous current => current - previous)
      (Host.coreTimes cpus after))[cpu]? =
        some (UInt64.ofNat (after cpu) - UInt64.ofNat (before cpu)) := by
    simp [Host.coreTimes, List.getElem?_range inside]
  rw [element, Option.getD_some]
  exact toNat_ofNat_sub grown fits

/-- The delta of a process on a CPU is at most what its reads differ by; it is nothing
without two records that have core times. -/
theorem Represents.coreTimeDelta_le {tracker : ProcessTracker Trace}
    (represents : tracker.Represents) {cpus pid cpu : Nat} {before after : Nat → Nat → Nat}
    (refreshed : ∀ vector ∈ tracker.procs, IsOf pid vector → Refreshed cpus before after vector)
    (grown : before pid cpu ≤ after pid cpu) (fits : cpu < cpus → after pid cpu < 2 ^ 64) :
    tracker.coreTimeDelta pid cpu ≤ after pid cpu - before pid cpu := by
  cases timed : tracker.getPerCoreCpuTimeDelta pid with
  | none =>
      rw [coreTimeDelta, timed]
      exact Nat.zero_le _
  | some deltas =>
      rw [Topology.coreTimeDelta_eq timed]
      unfold getPerCoreCpuTimeDelta at timed
      split at timed
      · rename_i last prev older found
        obtain ⟨member, isOf⟩ := findRecords_mem found
        have vector := refreshed _ member isOf
        have uniform := represents.uniform _ member
        split at timed
        · rename_i lastTimes prevTimes hasLast hasPrev
          have lastPid : last.process.pid = pid := isOf
          have prevPid : prev.process.pid = pid := uniform.pid_eq isOf (by simp)
          have lastRead := vector.newest last rfl lastTimes hasLast
          have prevRead := vector.second prev rfl prevTimes hasPrev
          rw [lastPid] at lastRead
          rw [prevPid] at prevRead
          split at timed
          · cases timed
            rw [lastRead, prevRead]
            rcases Nat.lt_or_ge cpu cpus with inside | outside
            · exact Nat.le_of_eq (toNat_coreTimes_sub inside grown (fits inside))
            · have nothing : (List.zipWith (fun previous current => current - previous)
                  (Host.coreTimes cpus (before pid)) (Host.coreTimes cpus (after pid)))[cpu]? =
                  none := by
                rw [List.getElem?_eq_none_iff]
                simpa [Host.coreTimes] using outside
              rw [nothing]
              exact Nat.zero_le _
          · cases timed
        · cases timed
      · cases timed

end ProcessTracker

namespace Topology

/-- The proportion of a process on the core at `index`, zero without core time data. -/
def coreProportion (topology : Topology ExactFloat Trace) (index pid : Nat) : ExactFloat :=
  match topology.getProcessCoreTimeData pid with
  | .ok (some data) => data.proportions[index]?.getD (.num 0)
  | _ => .num 0

/-- The last two records agree with one another: on every CPU the deltas of the processes add
up to at most the growth of `CPU_TIME`, and on every core their proportions add up to at most
one. -/
def Consistent (pids : List Nat) (topology : Topology ExactFloat Trace) : Prop :=
  ((lastTwo topology.cpuTimeBuffer).isSome → ∀ cpu < topology.procTracker.nbCores,
    (pids.map fun pid => topology.procTracker.coreTimeDelta pid cpu).sum ≤
      topology.cpuTimeGrowth cpu) ∧
  ∀ index < topology.getCores.length, ∃ total ≤ 1,
    Float64.sum (pids.map (topology.coreProportion index)) = .num total

/-- A proportion is at most the share of the process. -/
theorem coreProportion_le {topology : Topology ExactFloat Trace} {index : Nat}
    (inside : index < topology.getCores.length) (pid : Nat) :
    ∃ part ≤ topology.ebpfShare pid (topology.getCores.get ⟨index, inside⟩),
      topology.coreProportion index pid = .num part := by
  have nonneg : 0 ≤ topology.ebpfShare pid (topology.getCores.get ⟨index, inside⟩) := by
    rw [ebpfShare]
    positivity
  unfold coreProportion
  split
  · rename_i data found
    cases timed : topology.procTracker.getPerCoreCpuTimeDelta pid with
    | none =>
        rw [getProcessCoreTimeData_of_fallsBack (Or.inl timed)] at found
        cases found
    | some deltas =>
        cases differs : topology.getCpuTimeDiff with
        | none =>
            rw [getProcessCoreTimeData_of_fallsBack (Or.inr differs)] at found
            cases found
        | some diff =>
            have covered := covered_of_ok timed differs found
            rw [getProcessCoreTimeData_of_timed timed differs covered] at found
            cases found
            refine ⟨_, min_le_left _ 1, ?_⟩
            simp [List.getElem?_eq_getElem inside]
  · exact ⟨0, nonneg, rfl⟩

/-- Deltas that add up to at most the growth give proportions that add up to at most one. -/
theorem sum_coreProportion_le_one {topology : Topology ExactFloat Trace} {pids : List Nat}
    {index : Nat} (inside : index < topology.getCores.length)
    (within : ∀ cpu, topology.cpuTimeGrowth cpu ≠ 0 →
      (pids.map fun pid => topology.procTracker.coreTimeDelta pid cpu).sum ≤
        topology.cpuTimeGrowth cpu) :
    ∃ total ≤ 1, Float64.sum (pids.map (topology.coreProportion index)) = .num total := by
  choose part most proportion using topology.coreProportion_le inside
  refine ⟨(pids.map part).sum, ?_, ?_⟩
  · have shares : (pids.map part).sum ≤ (pids.map fun pid => topology.ebpfShare pid
        (topology.getCores.get ⟨index, inside⟩)).sum :=
      List.sum_le_sum fun pid _ => most pid
    refine shares.trans ?_
    change (pids.map fun pid => (topology.procTracker.coreTimeDelta pid _ : ℚ) / _).sum ≤ 1
    rw [sum_map_div]
    by_cases grew : topology.cpuTimeGrowth (topology.getCores.get ⟨index, inside⟩).id = 0
    · rw [grew, Nat.cast_zero, div_zero]
      exact zero_le_one
    · exact div_le_one_of_le₀ (by exact_mod_cast within _ grew) (by positivity)
  · rw [funext proportion]
    exact ExactFloat.sum_num part pids

/-! ## The records a refresh leaves -/

/-- The record of the CPU times is appended, and old ones may go. -/
theorem cpuTimeBuffer_refresh (topology : Topology ExactFloat Trace)
    {input : RefreshInput ExactFloat Trace} {map : Nat → Option Nat}
    (present : input.cpuTime = some map) :
    ∃ (record : MultiValuedRecord Text) (count : Nat),
      (topology.refresh input).cpuTimeBuffer = (topology.cpuTimeBuffer ++ [record]).drop count ∧
        record.values = (List.range topology.procTracker.nbCores).map fun cpu =>
          toText ((map cpu).getD 0) := by
  have cores := (nbCores_refresh topology input).1
  rw [procTracker_refresh] at cores
  rw [← cores]
  unfold refresh refreshRecord refreshCpuTimeRecord
  rw [present]
  exact ⟨_, _, rfl, rfl⟩

end Topology

/-! ## Runs of refreshes -/

/-- A refresh beside the growing maps: the order in which the processes are listed, what
happens to the maps meanwhile, the record of each process but its core times, and what else is
read.  `counted` says of which processes `PID_TIMES` has an entry. -/
structure SampledRefresh (pids : List Nat) (nbCores : Nat) (Trace : Type) where
  order : List Nat
  listed : order.Perm pids
  schedule : Schedule order nbCores
  seen : Nat → IProcess Trace
  time : Nat → Nat
  counted : Nat → Bool
  now : Nat
  drained : List CpuStateEvent
  socketReading : Nat → SocketReading
  coreReading : Nat → Nat → CoreRecord ExactFloat
  energy : Option (Record Text)

/-- The topology, the maps and what was read of them, and the observer's note of the late
credits of the last refresh. -/
structure Watched (Trace : Type) where
  topology : Topology ExactFloat Trace
  sampling : Sampling
  late : Nat → Nat

variable {pids : List Nat} {nbCores : Nat}

/-- What `refresh` gets to see, `cpus` being the number of slots of the per-CPU map. -/
def SampledRefresh.input (refresh : SampledRefresh pids nbCores Trace) (cpus : Nat)
    (sampling : Sampling) : RefreshInput ExactFloat Trace where
  now := refresh.now
  drained := refresh.drained
  socketReading := refresh.socketReading
  coreReading := refresh.coreReading
  processes := refresh.order.map fun pid =>
    (refresh.time pid, { refresh.seen pid with
      pid := pid
      coreBusyTimes :=
        if refresh.counted pid then some (Host.coreTimes cpus (sampling.processReads pid))
        else none })
  cpuTime := some fun cpu => some (sampling.cpuReads cpu)
  energy := refresh.energy

namespace Watched

def step (cpus : Nat) (watched : Watched Trace) (refresh : SampledRefresh pids nbCores Trace) :
    Watched Trace :=
  let sampling := run Sampling.step watched.sampling refresh.schedule.steps
  { topology := watched.topology.refresh (refresh.input cpus sampling)
    sampling := sampling
    late := refresh.schedule.late }

/-- A topology without records beside maps of any content. -/
def start (topology : Topology ExactFloat Trace) (nbCores : Nat) (pidTimes : Nat → Nat → Nat)
    (cpuTime : Nat → Nat) : Watched Trace where
  topology := { topology with procTracker := .empty nbCores 5, cpuTimeBuffer := [] }
  sampling := ⟨pidTimes, cpuTime, pidTimes, cpuTime⟩
  late := fun _ => 0

/-- The counters stay below `2 ^ 64`. -/
def Admissible (cpus : Nat) (watched : Watched Trace)
    (refresh : SampledRefresh pids nbCores Trace) : Prop :=
  let sampling := run Sampling.step watched.sampling refresh.schedule.steps
  (∀ pid ∈ pids, ∀ cpu < cpus, sampling.pidTimes pid cpu < 2 ^ 64) ∧
    ∀ cpu < nbCores, sampling.cpuTime cpu < 2 ^ 64

/-- No CPU gets less late time than in the refresh before, and the clock is not behind the
records of the processes. -/
def InOrder (watched : Watched Trace) (refresh : SampledRefresh pids nbCores Trace) : Prop :=
  (∀ cpu < nbCores, watched.late cpu ≤ refresh.schedule.late cpu) ∧
    ∀ pid ∈ pids, ∀ vector ∈ watched.topology.procTracker.procs, IsOf pid vector →
      ∀ record ∈ vector, record.timestamp ≤ refresh.time pid

instance (cpus : Nat) (watched : Watched Trace) (refresh : SampledRefresh pids nbCores Trace) :
    Decidable (watched.Admissible cpus refresh) :=
  inferInstanceAs (Decidable (_ ∧ _))

instance (watched : Watched Trace) (refresh : SampledRefresh pids nbCores Trace) :
    Decidable (watched.InOrder refresh) :=
  inferInstanceAs (Decidable (_ ∧ _))

/-! ## The invariant -/

/-- The records are those of the last reads. -/
structure Recorded (pids : List Nat) (nbCores cpus : Nat) (watched : Watched Trace) : Prop where
  represents : watched.topology.procTracker.Represents
  limit : watched.topology.procTracker.maxRecordsPerProcess = 5
  cores : watched.topology.procTracker.nbCores = nbCores
  ready : ∀ pid ∈ pids, ∀ vector ∈ watched.topology.procTracker.procs, IsOf pid vector →
    Ready cpus watched.sampling.processReads vector
  cpuTimes : ∀ record ∈ watched.topology.cpuTimeBuffer.getLast?,
    record.values = (List.range nbCores).map fun cpu => toText (watched.sampling.cpuReads cpu)
  behind : watched.sampling.Behind pids nbCores watched.late

theorem recorded_start (topology : Topology ExactFloat Trace) (pids : List Nat)
    (nbCores cpus : Nat) (pidTimes : Nat → Nat → Nat) (cpuTime : Nat → Nat) :
    Recorded pids nbCores cpus (start topology nbCores pidTimes cpuTime) where
  represents := ⟨List.Pairwise.nil, fun _ member => absurd member List.not_mem_nil,
    fun _ member => absurd member List.not_mem_nil⟩
  limit := rfl
  cores := rfl
  ready := fun _ _ _ member => absurd member List.not_mem_nil
  cpuTimes := fun _ absent => nomatch absent
  behind := ⟨fun _ _ _ => Nat.le_refl _, fun _ _ => Nat.le_refl _, fun _ _ => rfl⟩

/-- After a refresh every process has its new record on top of that of the refresh before. -/
theorem Recorded.refreshed {cpus : Nat} {watched : Watched Trace}
    (recorded : Recorded pids nbCores cpus watched) (distinct : pids.Nodup)
    {refresh : SampledRefresh pids nbCores Trace} (inOrder : watched.InOrder refresh) :
    (watched.step cpus refresh).topology.procTracker.Represents ∧
      ∀ pid ∈ pids, ∀ vector ∈ (watched.step cpus refresh).topology.procTracker.procs,
        IsOf pid vector → Refreshed cpus watched.sampling.processReads
          (watched.step cpus refresh).sampling.processReads vector := by
  let sampling := run Sampling.step watched.sampling refresh.schedule.steps
  let processes := (refresh.input cpus sampling).processes
  have pidsSeen : (processes.map fun seen => seen.2.pid) = refresh.order := by
    simp [processes, SampledRefresh.input, Function.comp_def]
  have distinctSeen : (processes.map fun seen => seen.2.pid).Nodup := by
    rw [pidsSeen]
    exact refresh.listed.nodup_iff.mpr distinct
  have positive : 1 ≤ watched.topology.procTracker.maxRecordsPerProcess := by
    rw [recorded.limit]
    decide
  have ready : ∀ seen ∈ processes, ∀ vector ∈ watched.topology.procTracker.procs,
      IsOf seen.2.pid vector → Ready cpus watched.sampling.processReads vector ∧
        ∀ older ∈ vector, older.timestamp ≤ seen.1 := by
    intro seen isSeen vector member isOf
    obtain ⟨pid, isPid, rfl⟩ := List.mem_map.mp isSeen
    have known := refresh.listed.mem_iff.mp isPid
    exact ⟨recorded.ready pid known vector member isOf, inOrder.2 pid known vector member isOf⟩
  have read : ∀ seen ∈ processes, Shows cpus sampling.processReads ⟨seen.2, seen.1⟩ := by
    intro seen isSeen times found
    obtain ⟨pid, isPid, rfl⟩ := List.mem_map.mp isSeen
    change (if refresh.counted pid then _ else none) = some times at found
    split at found
    · cases found
      rfl
    · cases found
  obtain ⟨represents, vectors⟩ := ProcessTracker.refreshed_of_foldl processes
    recorded.represents positive distinctSeen ready read
  have tracker : (watched.step cpus refresh).topology.procTracker =
      processes.foldl (fun tracker seen => tracker.addProcessRecord seen.1 seen.2)
        watched.topology.procTracker :=
    Topology.procTracker_refresh _ _
  rw [tracker]
  refine ⟨represents, ?_⟩
  intro pid isPid vector member isOf
  refine (vectors vector member pid isOf).1 ?_
  rw [pidsSeen]
  exact refresh.listed.mem_iff.mpr isPid

theorem sampled_step (cpus : Nat) (watched : Watched Trace) (distinct : pids.Nodup)
    (refresh : SampledRefresh pids nbCores Trace) :
    Sampling.Sampled pids nbCores (watched.step cpus refresh).late watched.sampling
      (watched.step cpus refresh).sampling :=
  (refresh.schedule.sampled (refresh.listed.nodup_iff.mpr distinct) watched.sampling).perm
    refresh.listed

theorem cpuTimeBuffer_step {cpus : Nat} {watched : Watched Trace}
    (recorded : Recorded pids nbCores cpus watched)
    (refresh : SampledRefresh pids nbCores Trace) :
    ∃ (record : MultiValuedRecord Text) (count : Nat),
      (watched.step cpus refresh).topology.cpuTimeBuffer =
        (watched.topology.cpuTimeBuffer ++ [record]).drop count ∧
      record.values = (List.range nbCores).map fun cpu =>
        toText ((watched.step cpus refresh).sampling.cpuReads cpu) := by
  have present : (refresh.input cpus (watched.step cpus refresh).sampling).cpuTime =
      some fun cpu => some ((watched.step cpus refresh).sampling.cpuReads cpu) := rfl
  obtain ⟨record, count, buffer, values⟩ :=
    Topology.cpuTimeBuffer_refresh watched.topology present
  rw [recorded.cores] at values
  exact ⟨record, count, buffer, values⟩

/-- Two records of the CPU times are those of the refresh and the one before. -/
theorem cpuTimes_of_pair {cpus : Nat} {watched : Watched Trace}
    (recorded : Recorded pids nbCores cpus watched)
    {refresh : SampledRefresh pids nbCores Trace}
    {records : MultiValuedRecord Text × MultiValuedRecord Text}
    (pair : lastTwo (watched.step cpus refresh).topology.cpuTimeBuffer = some records) :
    (records.2.values = (List.range nbCores).map fun cpu =>
        toText ((watched.step cpus refresh).sampling.cpuReads cpu)) ∧
      records.1.values = (List.range nbCores).map fun cpu =>
        toText (watched.sampling.cpuReads cpu) := by
  obtain ⟨record, count, buffer, values⟩ := cpuTimeBuffer_step recorded refresh
  have uncut := lastTwo_of_suffix (buffer ▸ List.drop_suffix count _) pair
  rw [lastTwo_concat] at uncut
  obtain ⟨previous, isPrevious, rfl⟩ := Option.map_eq_some_iff.mp uncut
  exact ⟨values, recorded.cpuTimes previous isPrevious⟩

theorem Recorded.cpuTimeGrowth_eq {cpus : Nat} {watched : Watched Trace}
    (recorded : Recorded pids nbCores cpus watched) (distinct : pids.Nodup)
    {refresh : SampledRefresh pids nbCores Trace} (admissible : watched.Admissible cpus refresh)
    (two : (lastTwo (watched.step cpus refresh).topology.cpuTimeBuffer).isSome) {cpu : Nat}
    (inside : cpu < nbCores) :
    (watched.step cpus refresh).topology.cpuTimeGrowth cpu =
      (watched.step cpus refresh).sampling.cpuReads cpu - watched.sampling.cpuReads cpu := by
  have sampled := sampled_step cpus watched distinct refresh
  have grown := (recorded.behind.cpus cpu inside).trans (sampled.cpus cpu inside).1
  have fits : (watched.step cpus refresh).sampling.cpuReads cpu ≤ u64Max :=
    Nat.le_of_lt_succ (Nat.lt_of_le_of_lt (sampled.cpus cpu inside).2 (admissible.2 cpu inside))
  obtain ⟨records, pair⟩ := Option.isSome_iff_exists.mp two
  obtain ⟨isNew, isOld⟩ := cpuTimes_of_pair recorded pair
  have lastText : records.2.values[cpu]? =
      some (toText ((watched.step cpus refresh).sampling.cpuReads cpu)) := by
    rw [isNew, List.getElem?_map, List.getElem?_range inside]
    rfl
  have previousText : records.1.values[cpu]? = some (toText (watched.sampling.cpuReads cpu)) := by
    rw [isOld, List.getElem?_map, List.getElem?_range inside]
    rfl
  unfold Topology.cpuTimeGrowth
  rw [pair]
  simp only [lastText, previousText, Topology.cpuTimeDelta, parseU64_toText fits,
    parseU64_toText (grown.trans fits), Option.getD_some, if_pos grown]

theorem Recorded.cpuTimeGrowth_outside {cpus : Nat} {watched : Watched Trace}
    (recorded : Recorded pids nbCores cpus watched)
    {refresh : SampledRefresh pids nbCores Trace} {cpu : Nat}
    (grew : (watched.step cpus refresh).topology.cpuTimeGrowth cpu ≠ 0) :
    (lastTwo (watched.step cpus refresh).topology.cpuTimeBuffer).isSome ∧ cpu < nbCores := by
  unfold Topology.cpuTimeGrowth at grew
  cases pair : lastTwo (watched.step cpus refresh).topology.cpuTimeBuffer with
  | none =>
      rw [pair] at grew
      exact absurd rfl grew
  | some records =>
      refine ⟨rfl, ?_⟩
      rw [pair] at grew
      by_contra outside
      have missing : records.2.values[cpu]? = none := by
        rw [(cpuTimes_of_pair recorded pair).1, List.getElem?_eq_none_iff]
        simpa using outside
      simp [missing] at grew

theorem Recorded.step {cpus : Nat} {watched : Watched Trace}
    (recorded : Recorded pids nbCores cpus watched) (distinct : pids.Nodup)
    {refresh : SampledRefresh pids nbCores Trace} (inOrder : watched.InOrder refresh) :
    Recorded pids nbCores cpus (watched.step cpus refresh) := by
  obtain ⟨represents, vectors⟩ := recorded.refreshed distinct inOrder
  obtain ⟨cores, limit⟩ := Topology.nbCores_refresh watched.topology
    (refresh.input cpus (watched.step cpus refresh).sampling)
  refine ⟨represents, limit.trans recorded.limit, cores.trans recorded.cores, ?_, ?_,
    (sampled_step cpus watched distinct refresh).behind⟩
  · intro pid isPid vector member isOf
    exact (vectors pid isPid vector member isOf).toReady
  · intro last isLast
    obtain ⟨record, count, buffer, values⟩ := cpuTimeBuffer_step recorded refresh
    rw [buffer, List.getLast?_drop] at isLast
    split at isLast
    · cases isLast
    · rw [List.getLast?_concat] at isLast
      cases isLast
      exact values

theorem Recorded.consistent {cpus : Nat} {watched : Watched Trace}
    (recorded : Recorded pids nbCores cpus watched) (distinct : pids.Nodup)
    {refresh : SampledRefresh pids nbCores Trace} (admissible : watched.Admissible cpus refresh)
    (inOrder : watched.InOrder refresh) :
    (watched.step cpus refresh).topology.Consistent pids := by
  obtain ⟨represents, vectors⟩ := recorded.refreshed distinct inOrder
  have sampled := sampled_step cpus watched distinct refresh
  have deltas : ∀ cpu, (lastTwo (watched.step cpus refresh).topology.cpuTimeBuffer).isSome →
      cpu < nbCores →
      (pids.map fun pid =>
        (watched.step cpus refresh).topology.procTracker.coreTimeDelta pid cpu).sum ≤
        (watched.step cpus refresh).topology.cpuTimeGrowth cpu := by
    intro cpu two inside
    have gains : ∀ pid ∈ pids,
        (watched.step cpus refresh).topology.procTracker.coreTimeDelta pid cpu ≤
          (watched.step cpus refresh).sampling.processReads pid cpu -
            watched.sampling.processReads pid cpu := by
      intro pid isPid
      refine represents.coreTimeDelta_le (vectors pid isPid)
        ((recorded.behind.processes pid isPid cpu).trans (sampled.processes pid isPid cpu).1) ?_
      intro slot
      exact Nat.lt_of_le_of_lt (sampled.processes pid isPid cpu).2 (admissible.1 pid isPid cpu slot)
    rw [recorded.cpuTimeGrowth_eq distinct admissible two inside]
    exact (List.sum_le_sum gains).trans
      ((recorded.behind.growth_le_iff sampled inside).mpr (inOrder.1 cpu inside))
  have cores : (watched.step cpus refresh).topology.procTracker.nbCores = nbCores :=
    (Topology.nbCores_refresh _ _).1.trans recorded.cores
  refine ⟨?_, ?_⟩
  · intro two cpu inside
    exact deltas cpu two (cores ▸ inside)
  · intro index inside
    refine Topology.sum_coreProportion_le_one inside ?_
    intro cpu grew
    obtain ⟨two, isCpu⟩ := recorded.cpuTimeGrowth_outside grew
    exact deltas cpu two isCpu

/-- In every run of refreshes in which no refresh has less late time on a CPU than the one
before it, and the clock does not step behind the records, the snapshots agree after every
refresh. -/
theorem always_consistent_of_inOrder (cpus : Nat) (distinct : pids.Nodup)
    (topology : Topology ExactFloat Trace) (pidTimes : Nat → Nat → Nat) (cpuTime : Nat → Nat)
    (refreshes : List (SampledRefresh pids nbCores Trace))
    (meets : Meets (step cpus)
      (fun watched refresh => watched.Admissible cpus refresh ∧ watched.InOrder refresh)
      (start topology nbCores pidTimes cpuTime) refreshes) :
    Always (step cpus) (fun watched => watched.topology.Consistent pids)
      (start topology nbCores pidTimes cpuTime) refreshes := by
  have kept : ∀ (watched : Watched Trace) (refresh : SampledRefresh pids nbCores Trace),
      Recorded pids nbCores cpus watched ∧ watched.topology.Consistent pids →
      watched.Admissible cpus refresh ∧ watched.InOrder refresh →
        Recorded pids nbCores cpus (watched.step cpus refresh) ∧
          (watched.step cpus refresh).topology.Consistent pids := by
    rintro watched refresh ⟨recorded, _⟩ ⟨admissible, inOrder⟩
    exact ⟨recorded.step distinct inOrder, recorded.consistent distinct admissible inOrder⟩
  refine always_of_invariant kept (fun _ holds => holds.2) ⟨recorded_start _ _ _ _ _ _, ?_⟩ meets
  refine ⟨fun two => absurd two Bool.false_ne_true, fun index inside => ?_⟩
  exact Topology.sum_coreProportion_le_one inside fun cpu grew => absurd rfl grew

end Watched

/-! ## Two processes on one core -/

/-- Five nanoseconds for each of two processes, all before the reads. -/
def promptSchedule : Schedule [7, 8] 1 where
  steps := [.credit 7 0 5, .credit 8 0 5, .readProcess 7, .readProcess 8, .readCpu 0]
  reads := by decide
  credits := by
    intro pid cpu delta member
    simp only [List.mem_cons, SampleStep.credit.injEq, reduceCtorEq, List.not_mem_nil,
      or_false] at member ⊢
    omega

/-- Ten nanoseconds for each of two processes, and five for the first one between its read and
that of the core. -/
def lateSchedule : Schedule [7, 8] 1 where
  steps := [.credit 7 0 10, .credit 8 0 10, .readProcess 7, .readProcess 8, .credit 7 0 5,
    .readCpu 0]
  reads := by decide
  credits := by
    intro pid cpu delta member
    simp only [List.mem_cons, SampleStep.credit.injEq, reduceCtorEq, List.not_mem_nil, false_or,
      or_false] at member ⊢
    omega

/-- A refresh with this schedule and a clock of `time`. -/
def sampledAt (time : Nat) (schedule : Schedule [7, 8] 1) : SampledRefresh [7, 8] 1 Unit where
  order := [7, 8]
  listed := .refl _
  schedule := schedule
  seen := fun pid => ProcessTracker.seenProcess pid "/bin/sh".toList
  time := fun _ => time
  counted := fun _ => true
  now := time
  drained := []
  socketReading := fun _ => ⟨none, fun _ => none⟩
  coreReading := fun _ _ => ⟨time, 0, 0, 0, 0, 0, 0, 0, .num 0, .num 0, 0⟩
  energy := none

/-- A node with one core, beside empty maps. -/
def oneCore : Watched Unit :=
  .start (sampledTopology [sampledSocket 0 0 [sampledCore 0 1 0]] [0] []) 1 (fun _ _ => 0)
    fun _ => 0

namespace Watched

/-- The late time does not shrink: the snapshots of three refreshes agree. -/
theorem always_consistent_of_inOrder_growing_late :
    Always (step 1) (fun watched => watched.topology.Consistent [7, 8]) oneCore
      [sampledAt 1 promptSchedule, sampledAt 2 lateSchedule, sampledAt 3 lateSchedule] := by
  have meets : Meets (step 1)
      (fun watched refresh => watched.Admissible 1 refresh ∧ watched.InOrder refresh) oneCore
      [sampledAt 1 promptSchedule, sampledAt 2 lateSchedule, sampledAt 3 lateSchedule] := by
    decide +kernel
  exact always_consistent_of_inOrder 1 (by decide) _ _ _ _ meets

/-- Late time only in the first of two refreshes: the processes gain 15 nanoseconds of the 10
that the core gains, and their proportions add up to one and a half. -/
theorem not_always_consistent_of_late_credit :
    let last := (run (step 1) oneCore
      [sampledAt 1 lateSchedule, sampledAt 2 promptSchedule]).topology
    Meets (step 1) (Admissible 1) oneCore [sampledAt 1 lateSchedule, sampledAt 2 promptSchedule] ∧
      ([7, 8].map fun pid => last.procTracker.coreTimeDelta pid 0).sum = 15 ∧
      last.cpuTimeGrowth 0 = 10 ∧
      Float64.sum ([7, 8].map (last.coreProportion 0)) = .num (3 / 2) ∧
      ¬ Always (step 1) (fun watched => watched.topology.Consistent [7, 8]) oneCore
        [sampledAt 1 lateSchedule, sampledAt 2 promptSchedule] := by
  intro last
  have deltas : ([7, 8].map fun pid => last.procTracker.coreTimeDelta pid 0).sum = 15 := by
    decide +kernel
  have growth : last.cpuTimeGrowth 0 = 10 := by decide +kernel
  refine ⟨by decide +kernel, deltas, growth, by decide +kernel, ?_⟩
  intro always
  have within := (always _ List.prefix_rfl).1 (by decide +kernel) 0 (by decide +kernel)
  change ([7, 8].map fun pid => last.procTracker.coreTimeDelta pid 0).sum ≤
    last.cpuTimeGrowth 0 at within
  rw [deltas, growth] at within
  omega

end Watched

end ScaphandreFormal.Sensors
