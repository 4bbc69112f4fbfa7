import ScaphandreFormal.Foundation.Positions
import ScaphandreFormal.Sensors.HostEnergy
import ScaphandreFormal.Sensors.ProcessPower

/-!
# CPUs that are offline

The sensors use four ways to name a CPU: its id, its position among the online CPUs in
`/proc/cpuinfo`, its position in `/proc/stat` and its index in the records of
`CPU_TIME`.  They look up the positions with the id, so that every reading is of the
right CPU just when the online CPUs are the first ones at the start and stay online.
-/

namespace ScaphandreFormal.Sensors

open Foundation

/-- The online CPUs by ascending id.  The ids are those of a `u16`. -/
structure OnlineCpus where
  ids : List Nat
  increasing : ids.Pairwise (· < ·)
  fits : ∀ id ∈ ids, id < 2 ^ 16

/-- A CPU is looked up with an index that nothing is at: `unwrap` of a missing block of
`/proc/cpuinfo`, or `remove` of a missing line of `/proc/stat`. -/
inductive CpuPanic where
  | unwrapNone
  | removalIndex
  deriving DecidableEq, Repr

/-! ## The cores at the start -/

abbrev Attributes := Text → Option Text

def Attributes.insert (attributes : Attributes) (key value : Text) : Attributes :=
  fun other => if other = key then some value else attributes other

/-- What the system says of a CPU: its block of `/proc/cpuinfo` and its entry in
`sysinfo`. -/
structure CpuDescription where
  info : Attributes
  frequency : Text
  vendorId : Text
  brand : Text

/-- The name that `sysinfo` gives a CPU. -/
def cpuName (cpu : Nat) : Text := "cpu".toList ++ toText cpu

/-- The id of a core: the number at the end of the name, or else the position. -/
def coreId (name : Text) (idx : Nat) : Nat :=
  (parseU16 (name.dropWhile fun ch => !ch.isDigit)).getD idx

/-- The attributes of a core, from a block of `/proc/cpuinfo` and the entry of `cpu`. -/
def coreAttributes (describe : Nat → CpuDescription) (info : Attributes) (cpu : Nat) :
    Attributes :=
  (((info.insert "frequency".toList (describe cpu).frequency).insert
    "name".toList (cpuName cpu)).insert "vendor_id".toList (describe cpu).vendorId).insert
      "brand".toList (describe cpu).brand

/-- `CPUCore` as it is generated. -/
structure GeneratedCore where
  id : Nat
  attributes : Attributes

namespace OnlineCpus

/-- `CpuInfo::get_info`: the block at a position. -/
def getInfo (online : OnlineCpus) (describe : Nat → CpuDescription) (cpuNum : Nat) :
    Option Attributes :=
  online.ids[cpuNum]?.map fun cpu => (describe cpu).info

/-- The body of the loop in `generate_cpu_cores`. -/
def generateCpuCore (online : OnlineCpus) (describe : Nat → CpuDescription) (cpu idx : Nat) :
    Except CpuPanic GeneratedCore :=
  let id := coreId (cpuName cpu) idx
  match online.getInfo describe id with
  | some info => .ok ⟨id, coreAttributes describe info cpu⟩
  | none => .error .unwrapNone

def generateCpuCores (online : OnlineCpus) (describe : Nat → CpuDescription) :
    Except CpuPanic (List GeneratedCore) :=
  online.ids.zipIdx.mapM fun entry => online.generateCpuCore describe entry.1 (entry.2 % 2 ^ 16)

end OnlineCpus

/-! ## The times of a core -/

/-- A line of `/proc/stat`. -/
structure CpuTime where
  user : Nat
  nice : Nat
  system : Nat
  idle : Nat
  iowait : Option Nat
  irq : Option Nat
  softirq : Option Nat
  steal : Option Nat
  guest : Option Nat
  guestNice : Option Nat
  deriving DecidableEq, Repr

namespace CpuTime

def total (line : CpuTime) : Nat :=
  line.user + line.nice + line.system + line.idle + line.iowait.getD 0 + line.irq.getD 0 +
    line.softirq.getD 0 + line.steal.getD 0 + line.guest.getD 0 + line.guestNice.getD 0

def busy (line : CpuTime) : Nat := line.total - line.idle - line.iowait.getD 0

end CpuTime

structure KernelStats where
  total : CpuTime
  cpuTime : List CpuTime

/-- `/proc/stat` with its lines for the online CPUs. -/
def OnlineCpus.kernelStats (online : OnlineCpus) (total : CpuTime) (line : Nat → CpuTime) :
    KernelStats :=
  ⟨total, online.ids.map line⟩

/-- The four values that `read_record` takes from `/proc/stat`. -/
def CoreRecord.withTimes {F : Type} (others : CoreRecord F) :
    Option (CpuTime × CpuTime) → CoreRecord F
  | some (node, line) =>
      { others with
        coreBusy := line.busy
        coreTotal := line.total
        nodeBusy := node.busy
        nodeTotal := node.total }
  | none => { others with coreBusy := 0, coreTotal := 0, nodeBusy := 0, nodeTotal := 0 }

namespace CPUCore

variable {F : Type}

/-- `read_stats`; a `CPUStat` is a copy of the line. -/
def readStats (core : CPUCore F) (kernelStats : Option KernelStats) :
    Except CpuPanic (Option CpuTime) :=
  match kernelStats with
  | some stats =>
      match stats.cpuTime[core.id]? with
      | some line => .ok (some line)
      | none => .error .removalIndex
  | none => .ok none

/-- `read_record`, where `others` holds what is read from files and counters named by the
id. -/
def readRecord (core : CPUCore F) (kernelStats : Option KernelStats) (others : CoreRecord F) :
    CoreRecord F :=
  others.withTimes (kernelStats.bind fun stats =>
    stats.cpuTime[core.id]?.map fun line => (stats.total, line))

end CPUCore

/-! ## Readings of the right CPU -/

/-- The line of a CPU, none if it is offline. -/
def OnlineCpus.lineOf (online : OnlineCpus) (line : Nat → CpuTime) (cpu : Nat) :
    Option CpuTime :=
  if cpu ∈ online.ids then some (line cpu) else none

/-- The cores are generated, each with the attributes of its CPU. -/
def OnlineCpus.GeneratesOwn (start : OnlineCpus) : Prop :=
  ∀ describe, ∃ cores, start.generateCpuCores describe = .ok cores ∧
    ∀ core ∈ cores, core.attributes = coreAttributes describe (describe core.id).info core.id

/-- The core reads the line of its CPU, and none while it is offline. -/
def CPUCore.ReadsOwn (core : CPUCore ExactFloat) (online : OnlineCpus) : Prop :=
  ∀ total line others,
    core.readStats (some (online.kernelStats total line)) = .ok (online.lineOf line core.id) ∧
    core.readRecord (some (online.kernelStats total line)) others =
      others.withTimes ((online.lineOf line core.id).map fun own => (total, own))

/-- Two samples of `CPU_TIME` by a topology that was built with the cores of the start.  Its
counters do not go back, and between the samples anything may happen to the rest of the
topology. -/
structure CpuTimeSamples (Trace : Type) (start : OnlineCpus) where
  before : Topology ExactFloat Trace
  after : Topology ExactFloat Trace
  first : RefreshInput ExactFloat Trace
  second : RefreshInput ExactFloat Trace
  earlier : Nat → Option Nat
  later : Nat → Option Nat
  nbCores_before : before.procTracker.nbCores = start.ids.length
  nbCores_after : after.procTracker.nbCores = start.ids.length
  bufferMaxKbytes_before : before.bufferMaxKbytes = 1
  bufferMaxKbytes_after : after.bufferMaxKbytes = 1
  cores : ∀ core ∈ after.getCores, core.id ∈ start.ids
  kept : after.cpuTimeBuffer = (before.refreshCpuTimeRecord first).cpuTimeBuffer
  sampledFirst : first.cpuTime = some earlier
  sampledSecond : second.cpuTime = some later
  grows : ∀ cpu, (earlier cpu).getD 0 ≤ (later cpu).getD 0
  bounded : ∀ cpu, (later cpu).getD 0 ≤ u64Max

namespace CpuTimeSamples

variable {Trace : Type} {start : OnlineCpus}

/-- The growth of `CPU_TIME` on a CPU. -/
def growth (samples : CpuTimeSamples Trace start) (cpu : Nat) : Nat :=
  (samples.later cpu).getD 0 - (samples.earlier cpu).getD 0

/-- The topology after the second sample. -/
def sampled (samples : CpuTimeSamples Trace start) : Topology ExactFloat Trace :=
  samples.after.refreshCpuTimeRecord samples.second

end CpuTimeSamples

/-- For a process with core times on every CPU, and unless no core did anything, each core has
the growth of `CPU_TIME` on its CPU. -/
def OnlineCpus.TimesOwn (Trace : Type) (start : OnlineCpus) : Prop :=
  ∀ (samples : CpuTimeSamples Trace start) (pid : Nat) (deltas : List UInt64),
    samples.after.procTracker.getPerCoreCpuTimeDelta pid = some deltas →
    (∀ core ∈ samples.after.getCores, core.id < deltas.length) →
    (∃ core ∈ samples.after.getCores, samples.growth core.id ≠ 0) →
    ∃ data, samples.sampled.getProcessCoreTimeData pid = .ok (some data) ∧
      data.totalNs = samples.after.getCores.map fun core => samples.growth core.id

/-- Offline CPUs are handled: with the CPUs of `start` online at the start and those of
`later` in turn from then on, everything is read of the right CPU. -/
def HandlesOffline (Trace : Type) (start : OnlineCpus) (later : List OnlineCpus) : Prop :=
  start.GeneratesOwn ∧
  (∀ online ∈ later, ∀ core : CPUCore ExactFloat, core.id ∈ start.ids → core.ReadsOwn online) ∧
  start.TimesOwn Trace

/-- The CPUs of the start are the first ones, and all of them stay online. -/
def AllOnline (start : OnlineCpus) (later : List OnlineCpus) : Prop :=
  start.ids = List.range start.ids.length ∧
    ∀ online ∈ later, ∀ cpu < start.ids.length, cpu ∈ online.ids

/-! ### The cores -/

theorem coreId_cpuName {cpu : Nat} (fits : cpu < 2 ^ 16) (idx : Nat) :
    coreId (cpuName cpu) idx = cpu := by
  have digits : (cpuName cpu).dropWhile (fun ch => !ch.isDigit) = toText cpu := by
    change (toText cpu).dropWhile (fun ch => !ch.isDigit) = toText cpu
    cases shown : toText cpu with
    | nil => rfl
    | cons first rest =>
        have isDigit : first.isDigit = true :=
          isDigit_of_mem_toText (by rw [shown]; exact List.mem_cons_self)
        rw [List.dropWhile_cons_of_neg (by simp [isDigit])]
  rw [coreId, digits, parseU16_toText fits, Option.getD_some]

namespace OnlineCpus

theorem generateCpuCore_eq {start : OnlineCpus} {cpu : Nat} (isOnline : cpu ∈ start.ids)
    (describe : Nat → CpuDescription) (idx : Nat) :
    start.generateCpuCore describe cpu idx =
      match start.ids[cpu]? with
      | some other => .ok ⟨cpu, coreAttributes describe (describe other).info cpu⟩
      | none => .error .unwrapNone := by
  simp only [generateCpuCore, getInfo, coreId_cpuName (start.fits cpu isOnline)]
  cases start.ids[cpu]? with
  | none => rfl
  | some other => rfl

/-- The cores have the attributes of their CPUs just when the CPUs are the first ones. -/
theorem generatesOwn_iff (start : OnlineCpus) :
    start.GeneratesOwn ↔ start.ids = List.range start.ids.length := by
  constructor
  · intro generates
    refine eq_range_of_own_position start.increasing ?_
    intro cpu isOnline
    -- A block that tells its CPU apart from the others.
    obtain ⟨cores, generated, own⟩ := generates fun cpu => ⟨fun _ => some (toText cpu), [], [], []⟩
    obtain ⟨idx, inside, rfl⟩ := List.mem_iff_getElem.mp isOnline
    obtain ⟨core, isCore, fromCpu⟩ := exists_mem_of_mapM_eq_ok generated
      (start.ids[idx], idx) (List.mem_zipIdx_iff_getElem?.mpr (List.getElem?_eq_getElem inside))
    rw [generateCpuCore_eq (List.getElem_mem inside)] at fromCpu
    split at fromCpu
    · rename_i other found
      cases fromCpu
      have same : some (toText other) = some (toText start.ids[idx]) :=
        congrFun (own _ isCore) []
      rw [found, toText_injective (Option.some.inj same)]
    · cases fromCpu
  · intro initial describe
    have each : ∀ entry ∈ start.ids.zipIdx,
        start.generateCpuCore describe entry.1 (entry.2 % 2 ^ 16) =
          .ok ⟨entry.1, coreAttributes describe (describe entry.1).info entry.1⟩ := by
      intro entry isEntry
      have isOnline : entry.1 ∈ start.ids := List.fst_mem_of_mem_zipIdx isEntry
      have own : start.ids[entry.1]? = some entry.1 := by
        rw [initial] at isOnline ⊢
        rw [List.getElem?_range (List.mem_range.mp isOnline)]
      rw [generateCpuCore_eq isOnline, own]
    refine ⟨_, mapM_eq_ok each, ?_⟩
    intro core isCore
    obtain ⟨entry, _, rfl⟩ := List.mem_map.mp isCore
    rfl

end OnlineCpus

/-! ### The lines of `/proc/stat` -/

/-- A core reads its own line just when its CPU stands at the position of its id. -/
theorem CPUCore.readsOwn_iff (core : CPUCore ExactFloat) (online : OnlineCpus) :
    core.ReadsOwn online ↔ online.ids[core.id]? = some core.id := by
  constructor
  · intro reads
    -- Lines that tell their CPUs apart.
    obtain ⟨stats, _⟩ := reads ⟨0, 0, 0, 0, none, none, none, none, none, none⟩
      (fun cpu => ⟨cpu, 0, 0, 0, none, none, none, none, none, none⟩)
      ⟨0, 0, 0, 0, 0, 0, 0, 0, .num 0, .num 0, 0⟩
    simp only [readStats, OnlineCpus.kernelStats, List.getElem?_map, OnlineCpus.lineOf] at stats
    cases found : online.ids[core.id]? with
    | none => simp [found] at stats
    | some other =>
        simp only [found, Option.map_some] at stats
        split at stats
        · have same := congrArg CpuTime.user (Option.some.inj (Except.ok.inj stats))
          exact congrArg Option.some same
        · cases stats
  · intro own total line others
    have isOnline : core.id ∈ online.ids := List.mem_of_getElem? own
    simp [readStats, readRecord, OnlineCpus.kernelStats, OnlineCpus.lineOf, own, isOnline]

/-! ### The times of `CPU_TIME` -/

theorem cpuTimeExcess_le (count : Nat) :
    Topology.cpuTimeExcess (maxBytes 1) count ≤ count - 2 := by
  unfold Topology.cpuTimeExcess
  simp only [show maxBytes 1 = 1000 from rfl, show sizeOfMultiValuedRecord = 64 from rfl]
  split
  · split
    · omega
    · exact Nat.zero_le _
  · exact Nat.zero_le _

/-- The record of a sample. -/
def cpuTimeRecord (now nbCores : Nat) (map : Nat → Option Nat) : MultiValuedRecord Text :=
  ⟨now, (List.range nbCores).map fun cpu => toText ((map cpu).getD 0),
    List.replicate nbCores .numeric⟩

theorem cpuTimeBuffer_of_sample {Trace : Type} {topology : Topology ExactFloat Trace}
    {input : RefreshInput ExactFloat Trace} {map : Nat → Option Nat}
    (small : topology.bufferMaxKbytes = 1) (sampled : input.cpuTime = some map) :
    ∃ count ≤ topology.cpuTimeBuffer.length + 1 - 2,
      (topology.refreshCpuTimeRecord input).cpuTimeBuffer =
        (topology.cpuTimeBuffer ++
          [cpuTimeRecord input.now topology.procTracker.nbCores map]).drop count := by
  unfold Topology.refreshCpuTimeRecord
  rw [sampled, small]
  refine ⟨_, ?_, rfl⟩
  simpa using cpuTimeExcess_le (topology.cpuTimeBuffer.length + 1)

namespace CpuTimeSamples

variable {Trace : Type} {start : OnlineCpus} (samples : CpuTimeSamples Trace start)

theorem getLast?_after :
    samples.after.cpuTimeBuffer.getLast? =
      some (cpuTimeRecord samples.first.now start.ids.length samples.earlier) := by
  obtain ⟨count, few, buffer⟩ :=
    cpuTimeBuffer_of_sample samples.bufferMaxKbytes_before samples.sampledFirst
  rw [samples.kept, buffer, List.getLast?_drop, if_neg, List.getLast?_concat,
    samples.nbCores_before]
  rw [List.length_append, List.length_singleton]
  omega

theorem lastTwo_sampled :
    lastTwo samples.sampled.cpuTimeBuffer =
      some (cpuTimeRecord samples.first.now start.ids.length samples.earlier,
        cpuTimeRecord samples.second.now start.ids.length samples.later) := by
  obtain ⟨count, few, buffer⟩ :=
    cpuTimeBuffer_of_sample samples.bufferMaxKbytes_after samples.sampledSecond
  rw [sampled, buffer, lastTwo_drop _ (by simpa using few), lastTwo_concat,
    samples.getLast?_after, samples.nbCores_after]
  rfl

/-- The records hold the growth of the CPUs below the number of cores, and zero for the
others. -/
theorem cpuTimeGrowth_sampled (cpu : Nat) :
    samples.sampled.cpuTimeGrowth cpu =
      if cpu < start.ids.length then samples.growth cpu else 0 := by
  have grows := samples.grows cpu
  have bounded := samples.bounded cpu
  simp only [Topology.cpuTimeGrowth, samples.lastTwo_sampled, cpuTimeRecord, List.getElem?_map]
  by_cases below : cpu < start.ids.length
  · rw [List.getElem?_range below, if_pos below]
    simp only [Option.map_some, Topology.cpuTimeDelta, growth, parseU64_toText bounded,
      parseU64_toText (Nat.le_trans grows bounded), Option.getD_some, if_pos grows]
  · rw [List.getElem?_eq_none (by simpa using below), if_neg below]
    rfl

theorem procTracker_sampled : samples.sampled.procTracker = samples.after.procTracker := by
  unfold sampled Topology.refreshCpuTimeRecord
  split <;> rfl

theorem getCores_sampled : samples.sampled.getCores = samples.after.getCores := by
  unfold sampled Topology.refreshCpuTimeRecord
  split <;> rfl

end CpuTimeSamples

/-- The cores have the times of their CPUs when the CPUs are the first ones. -/
theorem OnlineCpus.timesOwn_of_initial (Trace : Type) {start : OnlineCpus}
    (initial : start.ids = List.range start.ids.length) : start.TimesOwn Trace := by
  rintro samples pid deltas timed covered ⟨active, isActive, grew⟩
  have growth : ∀ core ∈ samples.after.getCores,
      samples.sampled.cpuTimeGrowth core.id = samples.growth core.id := by
    intro core isCore
    have below : core.id < start.ids.length := by
      have isOnline := samples.cores core isCore
      rw [initial] at isOnline
      exact List.mem_range.mp isOnline
    rw [samples.cpuTimeGrowth_sampled, if_pos below]
  rw [← growth active isActive] at grew
  obtain ⟨diff, differs⟩ := Topology.getCpuTimeDiff_of_growth grew
  rw [← samples.procTracker_sampled] at timed
  rw [← samples.getCores_sampled] at covered
  refine ⟨_, Topology.getProcessCoreTimeData_of_timed timed differs covered, ?_⟩
  rw [samples.getCores_sampled]
  apply List.map_congr_left
  intro core isCore
  rw [Topology.totalNsOf_eq differs, growth core isCore]

/-- A process seen twice, with no time on the CPUs up to `cpu`. -/
def idleProcess (cpu : Nat) : ProcessRecord Unit :=
  ⟨⟨7, [], 0, 0, some (List.replicate (cpu + 1) 0), 0, 0, 0, 0, 0, 0, ()⟩, 0⟩

/-- A topology with one core, and `CPU_TIME` that grows by one on every CPU. -/
def oneCoreSamples {start : OnlineCpus} {cpu : Nat} (isOnline : cpu ∈ start.ids) :
    CpuTimeSamples Unit start :=
  let before : Topology ExactFloat Unit :=
    { sockets := [⟨0, [], [], 1, [], [⟨cpu, [], 1⟩], 0⟩]
      procTracker := ⟨[[idleProcess cpu, idleProcess cpu]], start.ids.length, 5⟩
      recordBuffer := []
      bufferMaxKbytes := 1
      activationIdleBuffer := fun _ => []
      cpuTimeBuffer := [] }
  let sample (count : Nat) : RefreshInput ExactFloat Unit :=
    { now := count
      drained := []
      socketReading := fun _ => ⟨none, fun _ => none⟩
      coreReading := fun _ _ => ⟨0, 0, 0, 0, 0, 0, 0, 0, .num 0, .num 0, 0⟩
      processes := []
      cpuTime := some fun _ => some count
      energy := none }
  { before := before
    after := before.refreshCpuTimeRecord (sample 0)
    first := sample 0
    second := sample 1
    earlier := fun _ => some 0
    later := fun _ => some 1
    nbCores_before := rfl
    nbCores_after := rfl
    bufferMaxKbytes_before := rfl
    bufferMaxKbytes_after := rfl
    cores := by
      intro core isCore
      cases List.mem_singleton.mp isCore
      exact isOnline
    kept := rfl
    sampledFirst := rfl
    sampledSecond := rfl
    grows := fun _ => Nat.zero_le _
    bounded := fun _ => by decide }

theorem getPerCoreCpuTimeDelta_idle (cpu nbCores : Nat) :
    ProcessTracker.getPerCoreCpuTimeDelta
      ⟨[[idleProcess cpu, idleProcess cpu]], nbCores, 5⟩ 7 = some (List.replicate (cpu + 1) 0) := by
  simp [ProcessTracker.getPerCoreCpuTimeDelta, ProcessTracker.findRecords, IsOf, idleProcess]

/-- The cores have the times of their CPUs just when the CPUs are the first ones. -/
theorem OnlineCpus.timesOwn_iff (start : OnlineCpus) :
    start.TimesOwn Unit ↔ start.ids = List.range start.ids.length := by
  constructor
  · intro times
    refine eq_range_of_below start.increasing ?_
    intro cpu isOnline
    let samples := oneCoreSamples isOnline
    have timed : samples.after.procTracker.getPerCoreCpuTimeDelta 7 =
        some (List.replicate (cpu + 1) 0) := getPerCoreCpuTimeDelta_idle cpu _
    have covered : ∀ core ∈ samples.after.getCores,
        core.id < (List.replicate (cpu + 1) (0 : UInt64)).length := by
      intro core isCore
      cases List.mem_singleton.mp isCore
      simp
    obtain ⟨data, read, totals⟩ := times samples 7 _ timed covered
      ⟨⟨cpu, [], 1⟩, List.mem_singleton_self _, Nat.one_ne_zero⟩
    have grew : samples.sampled.cpuTimeGrowth 0 ≠ 0 := by
      rw [samples.cpuTimeGrowth_sampled, if_pos (List.length_pos_of_mem isOnline)]
      exact Nat.one_ne_zero
    obtain ⟨diff, differs⟩ := Topology.getCpuTimeDiff_of_growth grew
    rw [← samples.procTracker_sampled] at timed
    rw [← samples.getCores_sampled] at covered
    rw [Topology.getProcessCoreTimeData_of_timed timed differs covered] at read
    cases read
    have total : Topology.totalNsOf diff (⟨cpu, [], 1⟩ : CPUCore ExactFloat) = 1 :=
      (List.cons.inj totals).1
    rw [Topology.totalNsOf_eq differs, samples.cpuTimeGrowth_sampled] at total
    by_contra above
    rw [if_neg above] at total
    exact Nat.zero_ne_one total
  · exact OnlineCpus.timesOwn_of_initial Unit

/-- Offline CPUs are handled just when there are none: at the start the online CPUs are the
first ones, and all of them stay online. -/
theorem handlesOffline_iff_allOnline (Trace : Type) (start : OnlineCpus)
    (later : List OnlineCpus) : HandlesOffline Trace start later ↔ AllOnline start later := by
  constructor
  · rintro ⟨generates, reads, _⟩
    have initial := start.generatesOwn_iff.mp generates
    refine ⟨initial, ?_⟩
    intro online isLater cpu below
    have isCore : cpu ∈ start.ids := by
      rw [initial]
      exact List.mem_range.mpr below
    have own := (CPUCore.readsOwn_iff ⟨cpu, [], 1⟩ online).mp
      (reads online isLater ⟨cpu, [], 1⟩ isCore)
    exact List.mem_of_getElem? own
  · rintro ⟨initial, online⟩
    refine ⟨start.generatesOwn_iff.mpr initial, ?_, OnlineCpus.timesOwn_of_initial Trace initial⟩
    intro now isLater core isCore
    rw [initial] at isCore
    exact (core.readsOwn_iff now).mpr (getElem?_of_initial now.increasing
      (online now isLater) core.id (List.mem_range.mp isCore))


/-- With a hole at the start the cores are not generated, and a CPU that goes offline later
leaves a core without a line and another one with the wrong line. -/
theorem not_handlesOffline_of_hole :
    (¬ HandlesOffline Unit ⟨[0, 2], by decide, by decide⟩ []) ∧
      ¬ HandlesOffline Unit ⟨[0, 1, 2], by decide, by decide⟩ [⟨[0, 2], by decide, by decide⟩] := by
  constructor
  · rintro ⟨generates, _⟩
    have initial := (OnlineCpus.generatesOwn_iff _).mp generates
    exact absurd initial (by decide)
  · rintro ⟨_, reads, _⟩
    have own := (CPUCore.readsOwn_iff ⟨2, [], 1⟩ _).mp
      (reads _ List.mem_cons_self ⟨2, [], 1⟩ (by decide))
    exact absurd own (by decide)

end ScaphandreFormal.Sensors
