import ScaphandreFormal.Sensors.Topology

/-!
# Power of cores and processes

A socket splits its power over its cores by their counters.  The topology puts
the core powers of all sockets in the order of the core ids, and a process gets
of each core the part that its time on the core has of all time there, or,
without such data, the product of its share and the core's share of the busy
time of the node.
-/

namespace ScaphandreFormal.Sensors

open Foundation

variable {F Trace : Type} [Float64 F]

/-! ## Cores -/

structure CPUCoreMetrics (F : Type) where
  cpuTimePercentage : F
  aperf : Nat
  mperf : Nat
  tsc : Nat
  inst : F
  cyc : F
  ipc : F

def CPUCore.getCoreMetricsDelta (core : CPUCore F) : Option (CPUCoreMetrics F) :=
  (lastTwo core.recordBuffer).map fun (previous, last) =>
    let coreBusyDelta := last.coreBusy - previous.coreBusy
    let nodeBusyDelta := last.nodeBusy - previous.nodeBusy
    let inst := Float64.sub last.instructions previous.instructions
    let cyc := Float64.sub last.cycles previous.cycles
    { cpuTimePercentage :=
        if nodeBusyDelta ≠ 0 then
          Float64.mul (Float64.div (Float64.ofU64 coreBusyDelta) (Float64.ofU64 nodeBusyDelta))
            (Float64.ofU64 100)
        else Float64.ofU64 0
      aperf := last.aperf - previous.aperf
      mperf := last.mperf - previous.mperf
      tsc := last.tsc - previous.tsc
      inst := inst
      cyc := cyc
      ipc := if Float64.isPositive cyc then Float64.div inst cyc else Float64.ofU64 0 }

/-- The stable sort by core id. -/
def sortById {Item : Type} (id : Item → Nat) (items : List Item) : List Item :=
  items.insertionSort fun a b => id a ≤ id b

namespace CPUSocket

def getCores (socket : CPUSocket F) : List (CPUCore F) :=
  sortById CPUCore.id socket.cpuCores

def getCoreCoefs (socket : CPUSocket F) : List F :=
  socket.getCores.map fun core =>
    match core.getCoreMetricsDelta with
    | some metrics =>
        if 0 < metrics.tsc then
          let aperf : F := Float64.ofU64 metrics.aperf
          Float64.mul (Float64.mul (Float64.add (Float64.ofU64 1) metrics.ipc) aperf)
            (Float64.div aperf (Float64.ofU64 metrics.mperf))
        else Float64.ofU64 0
    | none => Float64.ofU64 0

def getCoreProportions (socket : CPUSocket F) : List F :=
  let coefs := socket.getCoreCoefs
  let totalCoefs := Float64.sum coefs
  coefs.map fun coef =>
    if Float64.isZero totalCoefs then Float64.ofU64 0 else Float64.div coef totalCoefs

/-- The power of the domain for the resource, or of the whole socket without one. -/
def getRecordsDiffPowerMicrowattsPerDomain (now : Nat) (name : Text) (socket : CPUSocket F) :
    Option (Record Text) :=
  match socket.domains.find? fun domain => domain.relatedResource = some name with
  | some domain => domain.getRecordsDiffPowerMicrowatts
  | none => socket.getRecordsDiffPowerMicrowatts now

def getProportionalCoreDiffPowerMicrowatts (now : Nat) (socket : CPUSocket F) :
    Option (MultiValuedRecord F) :=
  -- The source parses an `f64`; the text is a printed `u64`.
  match (socket.getRecordsDiffPowerMicrowattsPerDomain now "core".toList).bind
      fun r => parseU64 r.value with
  | some conso =>
      let energies := socket.getCoreProportions.map fun proportion =>
        Float64.mul proportion (Float64.ofU64 conso)
      some ⟨now, energies, energies.map fun _ => .numeric⟩
  | none => none

end CPUSocket

namespace Topology

def getCores (topology : Topology F Trace) : List (CPUCore F) :=
  sortById CPUCore.id (topology.sockets.flatMap CPUSocket.getCores)

/-- The loop over the sockets; a socket without a power ends it. -/
def collectCorePowers (now : Nat) : List (CPUSocket F) → Option (List (Nat × F))
  | [] => some []
  | socket :: rest =>
      match socket.getProportionalCoreDiffPowerMicrowatts now with
      | some record =>
          (collectCorePowers now rest).map fun later =>
            (socket.getCores.map CPUCore.id).zip record.values ++ later
      | none => none

def getProportionalCoreDiffPowerMicrowatts (now : Nat) (topology : Topology F Trace) :
    Option (MultiValuedRecord F) :=
  (collectCorePowers now topology.sockets).map fun v =>
    let sorted := sortById Prod.fst v
    ⟨now, sorted.map Prod.snd, sorted.map fun _ => .microWatt⟩

def getCoreCoefs (topology : Topology F Trace) : List F :=
  let v := topology.sockets.flatMap fun socket =>
    (socket.getCores.map CPUCore.id).zip socket.getCoreCoefs
  (sortById Prod.fst v).map Prod.snd

def getCoreProportions (topology : Topology F Trace) : List F :=
  let coefs := topology.getCoreCoefs
  let total := Float64.sum coefs
  coefs.map fun coef =>
    if Float64.isZero total then Float64.ofU64 0 else Float64.div coef total

/-! ## CPU time -/

/-- The difference of two `CPU_TIME` values, recovered over a wrap. -/
def cpuTimeDelta (last previous : Text) : Nat :=
  let lv := (parseU64 last).getD 0
  let pv := (parseU64 previous).getD 0
  if pv ≤ lv then lv - pv else u64Max - pv + lv

def getCpuTimeDiff (topology : Topology F Trace) : Option (MultiValuedRecord Text) :=
  match lastTwo topology.cpuTimeBuffer with
  | some (prev, last) =>
      let diffs := List.zipWith (fun l p => toText (cpuTimeDelta l p)) last.values prev.values
      if diffs.all fun d => d = ['0'] then none else some ⟨last.timestamp, diffs, last.units⟩
  | none => none

end Topology

def ProcessTracker.getProcessCpuTimeDeltaAsPercentage (F : Type) [Float64 F]
    (tracker : ProcessTracker Trace) (pid : Nat) : Option F :=
  match tracker.findRecords pid with
  | some (last :: prev :: _) =>
      let cpuDelta := last.process.cpuBusyTime - prev.process.cpuBusyTime
      let nodeDelta := last.process.nodeBusyTime - prev.process.nodeBusyTime
      if nodeDelta = 0 then none
      else some (Float64.mul (Float64.div (Float64.ofU64 cpuDelta) (Float64.ofU64 nodeDelta))
        (Float64.ofU64 100))
  | _ => none

/-! ## Attribution -/

/-- An index outside a vector. -/
inductive Panic where
  | indexOutOfBounds
  deriving DecidableEq, Repr

/-- `vector[index]`. -/
def indexed {Value : Type} (vector : List Value) (index : Nat) : Except Panic Value :=
  match vector[index]? with
  | some value => .ok value
  | none => .error .indexOutOfBounds

/-- The values a process metric is printed from. -/
inductive ProcessValue (F : Type) where
  | number (value : F)
  | count (value : Nat)
  | numbers (values : List F)
  | counts (values : List Nat)

/-- A metric of a process: its name, its description and its record. -/
structure ProcessMetric (F : Type) where
  name : Text
  description : Text
  record : Record (ProcessValue F)

/-- The nanoseconds of the process and of all processes on each core, and their ratios. -/
structure CoreTimeData (F : Type) where
  processNs : List Nat
  totalNs : List Nat
  proportions : List F

namespace Topology

/-- The time of all processes on a core. -/
def totalNsOf (cpuTimeDiff : MultiValuedRecord Text) (core : CPUCore F) : Nat :=
  ((cpuTimeDiff.values[core.id]?).bind parseU64).getD 0

def getProcessCoreTimeData (topology : Topology F Trace) (pid : Nat) :
    Except Panic (Option (CoreTimeData F)) :=
  match topology.procTracker.getPerCoreCpuTimeDelta pid, topology.getCpuTimeDiff with
  | some coreTimeDeltas, some cpuTimeDiff => do
      let cores := topology.getCores
      let proportions ← cores.mapM fun core =>
        if 0 < totalNsOf cpuTimeDiff core then do
          let delta ← indexed coreTimeDeltas core.id
          return Float64.min (Float64.div (Float64.ofU64 delta.toNat)
            (Float64.ofU64 (totalNsOf cpuTimeDiff core))) (Float64.ofU64 1)
        else return Float64.ofU64 0
      let processNs ← cores.mapM fun core => indexed coreTimeDeltas core.id
      return some ⟨processNs.map UInt64.toNat, cores.map (totalNsOf cpuTimeDiff), proportions⟩
  | _, _ => return none

/-- The share of the fallback: the process's part of the node's busy time times the
core's. -/
def fallbackProportion (processCpuPercentage : F) (core : CPUCore F) : F :=
  match core.getCoreMetricsDelta with
  | some metrics =>
      Float64.mul (Float64.div processCpuPercentage (Float64.ofU64 100))
        (Float64.div metrics.cpuTimePercentage (Float64.ofU64 100))
  | none => Float64.ofU64 0

def getProcessCoreProportions (topology : Topology F Trace) (pid : Nat) :
    Except Panic (Option (List F)) := do
  match ← topology.getProcessCoreTimeData pid with
  | some data => return some data.proportions
  | none =>
      return (topology.procTracker.getProcessCpuTimeDeltaAsPercentage F pid).map
        fun processCpuPercentage => topology.getCores.map (fallbackProportion processCpuPercentage)

/-- The sum that becomes the power of a process. -/
def attributedPower (powers percentages : List F) : Except Panic F := do
  let parts ← powers.zipIdx.mapM fun (conso, index) => do
    let percentage ← indexed percentages index
    return Float64.mul conso percentage
  return Float64.sum parts

/-- The metrics that need the busy time of the process. -/
def usageMetrics (record : ProcessRecord Trace) (processCpuPercentage : F) :
    List (ProcessMetric F) :=
  let metric (name description : String) (value : ProcessValue F) (unit : MeasureUnit) :
      ProcessMetric F := ⟨name.toList, description.toList, ⟨record.timestamp, value, unit⟩⟩
  [ metric "scaph_process_cpu_usage_percentage"
      "CPU time consumed by the process, as a percentage of the capacity of all the CPU Cores"
      (.number processCpuPercentage) .percentage,
    metric "scaph_process_memory_virtual_bytes" "Virtual RAM usage by the process, in bytes"
      (.count record.process.virtualMemory) .percentage,
    metric "scaph_process_memory_bytes" "Physical RAM usage by the process, in bytes"
      (.count record.process.memory) .bytes,
    metric "scaph_process_disk_write_bytes" "Data written on disk by the process, in bytes"
      (.count record.process.diskWritten) .bytes,
    metric "scaph_process_disk_read_bytes" "Data read on disk by the process, in bytes"
      (.count record.process.diskRead) .bytes,
    metric "scaph_process_disk_total_write_bytes"
      "Total data written on disk by the process, in bytes"
      (.count record.process.totalDiskWritten) .bytes,
    metric "scaph_process_disk_total_read_bytes"
      "Total data read on disk by the process, in bytes"
      (.count record.process.totalDiskRead) .bytes ]

/-- The metrics that show the core times behind the power. -/
def coreTimeMetrics (record : ProcessRecord Trace) (data : CoreTimeData F) :
    List (ProcessMetric F) :=
  let metric (name description : String) (value : ProcessValue F) : ProcessMetric F :=
    ⟨name.toList, description.toList, ⟨record.timestamp, value, .numeric⟩⟩
  [ metric "scaph_process_core_time_ns"
      "Per-core process busy time delta in nanoseconds (CSV, indexed by logical CPU)"
      (.counts data.processNs),
    metric "scaph_process_core_total_time_ns"
      "Per-core total CPU busy time delta in nanoseconds (CSV, indexed by logical CPU)"
      (.counts data.totalNs),
    metric "scaph_process_core_proportion"
      "Per-core fraction of CPU time used by this process (CSV, indexed by logical CPU)"
      (.numbers data.proportions) ]

/-- The power of a process with these proportions, zero without core powers. -/
def attributedResult (now : Nat) (topology : Topology F Trace) (percentages : List F) :
    Except Panic F :=
  match topology.getProportionalCoreDiffPowerMicrowatts now with
  | some powers => attributedPower powers.values percentages
  | none => .ok (Float64.ofU64 0)

def powerMetricName : Text := "scaph_process_power_consumption_microwatts".toList

def getAllPerProcess (now : Nat) (topology : Topology F Trace) (pid : Nat) :
    Except Panic (List (ProcessMetric F)) := do
  match topology.procTracker.getProcessLastRecord pid with
  | none => return []
  | some record =>
      let ebpfCoreData ← topology.getProcessCoreTimeData pid
      let corePercentages ← topology.getProcessCoreProportions pid
      let usage :=
        match topology.procTracker.getProcessCpuTimeDeltaAsPercentage F pid with
        | some processCpuPercentage => usageMetrics record processCpuPercentage
        | none => []
      match corePercentages with
      | none => return usage
      | some percentages =>
          let result ← topology.attributedResult now percentages
          let power : ProcessMetric F :=
            ⟨powerMetricName, "Total data read on disk by the process, in bytes".toList,
              ⟨record.timestamp, .number result, .microWatt⟩⟩
          let times :=
            match ebpfCoreData with
            | some data => coreTimeMetrics record data
            | none => []
          return usage ++ [power] ++ times

end Topology

end ScaphandreFormal.Sensors
