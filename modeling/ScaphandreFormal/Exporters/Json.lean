import ScaphandreFormal.Foundation.Cursor
import ScaphandreFormal.Foundation.Fallible
import ScaphandreFormal.Exporters.MetricGenerator
import Mathlib.Data.List.ReduceOption

/-!
# The JSON exporter

`retrieve_metrics` takes the popped metrics of a scrape apart again: it searches them by name
and groups them by the attributes `pid`, `socket_id` and `disk_name`.  Two of its searches
share an iterator with what comes after them.  A report is written when the host has a
positive power.

The attributes `pid` and `socket_id` are unwrapped in the source; every metric that is asked
for them has them.  Timestamps are left out.
-/

namespace ScaphandreFormal.Exporters.Json

open Foundation

/-! ## Reports -/

structure Domain (F : Type) where
  name : Text
  consumption : F
  background : Option F
  deriving DecidableEq

structure Socket (F : Type) where
  id : Nat
  consumption : F
  domains : List (Domain F)
  activation : Option F
  background : Option F
  deriving DecidableEq

structure CoreTimes (F : Type) where
  processNs : List Nat
  totalNs : List Nat
  proportion : List F
  deriving DecidableEq

structure ResourcesUsage where
  cpuUsage : Text
  cpuUsageUnit : Text := "%".toList
  memoryUsage : Text
  memoryUsageUnit : Text := "Bytes".toList
  memoryVirtualUsage : Text
  memoryVirtualUsageUnit : Text := "Bytes".toList
  diskUsageWrite : Text
  diskUsageWriteUnit : Text := "Bytes".toList
  diskUsageRead : Text
  diskUsageReadUnit : Text := "Bytes".toList
  deriving DecidableEq

structure Container where
  name : Text
  id : Text
  runtime : Text
  scheduler : Text
  deriving DecidableEq

structure Consumer (F : Type) where
  exe : Text
  cmdline : Text
  pid : Nat
  resourcesUsage : Option ResourcesUsage
  consumption : F
  container : Option Container
  coreTimes : Option (CoreTimes F)
  deriving DecidableEq

structure Disk where
  diskType : Text
  diskMountPoint : Text
  diskIsRemovable : Bool
  diskFileSystem : Text
  diskTotalBytes : Text
  diskAvailableBytes : Text
  diskName : Text
  deriving DecidableEq

structure Host (F : Type) where
  consumption : F
  disks : Option (List Disk)
  activation : Option F
  background : Option F
  deriving DecidableEq

structure Core (F : Type) where
  id : Nat
  consumption : F
  coefficient : F
  proportion : F
  deriving DecidableEq

structure Report (F : Type) where
  host : Host F
  idle : Option F
  activation : Option F
  background : Option F
  consumers : List (Consumer F)
  sockets : List (Socket F)
  cores : List (Core F)
  deriving DecidableEq

/-! ## What the exporter holds -/

/-- How numbers are read from texts and compared. -/
structure FloatReader (F : Type) where
  parseF32 : Text → Option F
  parseF64 : Text → Option F
  zero : F
  isPositive : F → Bool

/-- A socket of the topology, with the names and the backgrounds of its domains. -/
structure TopologySocket (F : Type) where
  id : Nat
  domains : List (Text × F)

/-- What is read beside the metrics: the pids of the selected processes, two options, and the
sockets and cores of the topology. -/
structure JsonExporter (F : Type) where
  consumers : List Nat
  watchContainers : Bool
  monitorResources : Bool
  sockets : List (TopologySocket F)
  corePowers : Option (List Text)
  coreCoefs : List F
  coreProportions : List F

/-- An `unwrap` of an attribute that is missing, or of a text that does not parse. -/
inductive JsonPanic where
  | missing
  | unparsable
  deriving DecidableEq, Repr

def getAttribute (metric : Metric) (key : Text) : Option Text := metric.attributes.lookup key

/-- `metric.attributes.get(key).unwrap()`. -/
def expectAttribute (metric : Metric) (key : Text) : Except JsonPanic Text :=
  match getAttribute metric key with
  | some value => .ok value
  | none => .error .missing

theorem getAttribute_of_expectAttribute {metric : Metric} {key value : Text}
    (expected : expectAttribute metric key = .ok value) : getAttribute metric key = some value := by
  unfold expectAttribute at expected
  split at expected
  · cases expected
    assumption
  · cases expected

def named (family : Family) (metric : Metric) : Bool := metric.name = family.name

def hasPid (pid : Nat) (metric : Metric) : Bool :=
  getAttribute metric "pid".toList = some (toText pid)

def hasSocketId (id : Nat) (metric : Metric) : Bool :=
  (getAttribute metric "socket_id".toList).bind parseU16 = some id

/-! ## Disks -/

def parseBool (text : Text) : Option Bool :=
  if text = "true".toList then some true
  else if text = "false".toList then some false
  else none

/-- The text of the value if the metric has the name, or another text. -/
def valueIf (family : Family) (m : Metric) (other : Text) : Text :=
  if named family m then m.metricValue.toText else other

def addingDisk (m : Metric) (metricDiskName : Text) : Except JsonPanic Disk := do
  let isRemovable ←
    match getAttribute m "disk_is_removable".toList with
    | some text =>
        match parseBool text with
        | some isRemovable => .ok isRemovable
        | none => .error .unparsable
    | none => .ok false
  return {
    diskName := metricDiskName
    diskAvailableBytes := valueIf .hostDiskAvailableBytes m []
    diskFileSystem := (getAttribute m "disk_file_system".toList).getD []
    diskIsRemovable := isRemovable
    diskMountPoint := (getAttribute m "disk_mount_point".toList).getD []
    diskTotalBytes := valueIf .hostDiskTotalBytes m []
    diskType := (getAttribute m "disk_type".toList).getD [] }

def editingDisk (m : Metric) (disk : Disk) : Disk :=
  { disk with
    diskAvailableBytes := valueIf .hostDiskAvailableBytes m disk.diskAvailableBytes
    diskTotalBytes := valueIf .hostDiskTotalBytes m disk.diskTotalBytes }

/-- The body of the loop of `gen_disks_report`. -/
def addDiskMetric (res : List Disk) (m : Metric) : Except JsonPanic (List Disk) := do
  let metricDiskName ← expectAttribute m "disk_name".toList
  match res.findIdx? fun x => metricDiskName = x.diskName with
  | some index => return res.modify index (editingDisk m)
  | none => do
      let disk ← addingDisk m metricDiskName
      return res ++ [disk]

def genDisksReport (metrics : List Metric) : Except JsonPanic (List Disk) :=
  metrics.foldlM addDiskMetric []

/-! ## Processes -/

/-- The metrics of the process. -/
def ofProcess (pid : Nat) (metric : Metric) : Bool :=
  decide ("scaph_process_".toList <+: metric.name) && hasPid pid metric

/-- The text of a metric that was found, or `0`. -/
def usageText (found : Option Metric) : Text :=
  (found.map fun metric => metric.metricValue.toText).getD "0".toList

/-- The five searches on one iterator over the metrics of the process. -/
def resourcesUsage (metrics : List Metric) (pid : Nat) : ResourcesUsage :=
  let cpu := seek (named .processCpuUsagePercentage) (metrics.filter (ofProcess pid))
  let mem := seek (named .processMemoryBytes) cpu.2
  let memVirtual := seek (named .processMemoryVirtualBytes) mem.2
  let diskWrite := seek (named .processDiskWriteBytes) memVirtual.2
  let diskRead := seek (named .processDiskReadBytes) diskWrite.2
  { cpuUsage := usageText cpu.1
    memoryUsage := usageText mem.1
    memoryVirtualUsage := usageText memVirtual.1
    diskUsageWrite := usageText diskWrite.1
    diskUsageRead := usageText diskRead.1 }

section

variable {F : Type} (reader : FloatReader F) (exporter : JsonExporter F) (metrics : List Metric)

/-- `format!("{}", m.metric_value).parse::<f32>().unwrap()`. -/
def expectPower (m : Metric) : Except JsonPanic F :=
  match reader.parseF32 m.metricValue.toText with
  | some power => .ok power
  | none => .error .unparsable

def coreTimes (pid : Nat) : Option (CoreTimes F) :=
  let find := fun family => metrics.find? fun x => named family x && hasPid pid x
  match find .processCoreTimeNs, find .processCoreTotalTimeNs, find .processCoreProportion with
  | some pn, some tn, some pr =>
      some {
        processNs := (pn.metricValue.toText.splitOn ',').filterMap parseU64
        totalNs := (tn.metricValue.toText.splitOn ',').filterMap parseU64
        proportion := (pr.metricValue.toText.splitOn ',').filterMap reader.parseF64 }
  | _, _, _ => none

def container (metric : Metric) : Option Container :=
  (getAttribute metric "container_id".toList).map fun containerId =>
    { id := containerId
      name := (getAttribute metric "container_names".toList).getD "unknown".toList
      runtime := (getAttribute metric "container_runtime".toList).getD "unknown".toList
      scheduler := (getAttribute metric "container_scheduler".toList).getD "unknown".toList }

/-- The consumer of a selected process that has a power. -/
def consumer (pid : Nat) : Except JsonPanic (Option (Consumer F)) :=
  match metrics.find? fun x => named .processPowerConsumptionMicrowatts x && hasPid pid x with
  | some metric => do
      let exe ← expectAttribute metric "exe".toList
      let cmdline ← expectAttribute metric "cmdline".toList
      let consumption ← expectPower reader metric
      return some {
        exe := exe
        cmdline := cmdline
        pid := pid
        resourcesUsage :=
          if exporter.monitorResources then some (Json.resourcesUsage metrics pid) else none
        consumption := consumption
        container := if exporter.watchContainers then container metric else none
        coreTimes := coreTimes reader metrics pid }
  | none => .ok none

/-! ## Sockets -/

def domain (socket : TopologySocket F) (d : Metric) : Except JsonPanic (Domain F) := do
  let domainName ← expectAttribute d "domain_name".toList
  let consumption ← expectPower reader d
  return {
    name := domainName
    consumption := consumption
    background := (socket.domains.find? fun rd => rd.1 = domainName).map Prod.snd }

/-- The pseudo-domain of the idle power. -/
def idleDomain (idleMetric : Metric) : Except JsonPanic (Domain F) := do
  let consumption ← expectPower reader idleMetric
  return { name := "idle".toList, consumption := consumption, background := none }

/-- The metric of a socket, read where it parses. -/
def socketPower (family : Family) (id : Nat) : Option F :=
  (metrics.find? fun x => named family x && hasSocketId id x).bind fun m =>
    reader.parseF32 m.metricValue.toText

/-- The entry of a socket; `socket_metrics_res` is the only metric that is looked at. -/
def socket (socketMetricsRes : Option Metric) (socket : TopologySocket F) :
    Except JsonPanic (Option (Socket F)) :=
  match socketMetricsRes.filter (hasSocketId socket.id) with
  | some metric => do
      let consumption ← expectPower reader metric
      let domains ← (metrics.filter fun x =>
        named .domainPowerMicrowatts x && hasSocketId socket.id x).mapM (domain reader socket)
      let idle ← ((metrics.find? fun x =>
        named .socketIdlePowerMicrowatts x && hasSocketId socket.id x).toList).mapM
          (idleDomain reader)
      return some {
        id := socket.id
        consumption := consumption
        domains := domains ++ idle
        activation := socketPower reader metrics .socketActivationPowerMicrowatts socket.id
        background := socketPower reader metrics .socketBackgroundPowerMicrowatts socket.id }
  | none => .ok none

/-! ## The host and the report -/

/-- A metric of the host, read where it parses. -/
def hostPower (family : Family) : Option F :=
  (metrics.find? (named family)).bind fun m => reader.parseF32 m.metricValue.toText

def host (disks : List Disk) : Except JsonPanic (Option (Host F)) :=
  match metrics.find? (named .hostPowerMicrowatts) with
  | some hostMetric => do
      let power ← expectPower reader hostMetric
      if reader.isPositive power then
        return some {
          consumption := power
          disks := some disks
          activation := hostPower reader metrics .hostActivationPowerMicrowatts
          background := hostPower reader metrics .hostBackgroundPowerMicrowatts }
      else return none
  | none => .ok none

def cores : List (Core F) :=
  ((exporter.corePowers.getD []).mapIdx fun id v =>
    (reader.parseF64 v).map fun consumption =>
      { id := id
        consumption := consumption
        coefficient := exporter.coreCoefs.getD id reader.zero
        proportion := exporter.coreProportions.getD id reader.zero }).reduceOption

/-- The metrics that are left on the iterator after the socket metric. -/
def isDiskMetric (metric : Metric) : Bool := "scaph_host_disk_".toList <+: metric.name

/-- `retrieve_metrics` on the popped metrics: the report that is written, if there is one. -/
def retrieveMetrics : Except JsonPanic (Option (Report F)) := do
  let metricsIter := seek (named .socketPowerMicrowatts) metrics
  let disks ← genDisksReport (metricsIter.2.filter isDiskMetric)
  let hostReport ← host reader metrics disks
  let topConsumers ← exporter.consumers.mapM (consumer reader exporter metrics)
  let allSockets ← exporter.sockets.mapM (socket reader metrics metricsIter.1)
  match hostReport with
  | some host =>
      return some {
        host := host
        idle := hostPower reader metrics .hostIdlePowerMicrowatts
        activation := hostPower reader metrics .hostActivationPowerMicrowatts
        background := hostPower reader metrics .hostBackgroundPowerMicrowatts
        consumers := topConsumers.reduceOption
        sockets := allSockets.reduceOption
        cores := cores reader exporter }
  | none => return none

end

section

variable {F : Type} {reader : FloatReader F} {exporter : JsonExporter F} {metrics : List Metric}

theorem parseF32_of_expectPower {metric : Metric} {power : F}
    (expected : expectPower reader metric = .ok power) :
    reader.parseF32 metric.metricValue.toText = some power := by
  unfold expectPower at expected
  split at expected
  · cases expected
    assumption
  · cases expected

theorem disks_of_host {disks : List Disk} {found : Host F}
    (isHost : host reader metrics disks = .ok (some found)) : found.disks = some disks := by
  unfold host at isHost
  split at isHost
  · obtain ⟨power, _, chosen⟩ := bind_eq_ok isHost
    split at chosen
    · cases chosen
      rfl
    · cases chosen
  · cases isHost

/-- What is in a report that is written. -/
theorem retrieveMetrics_cases {report : Report F}
    (written : retrieveMetrics reader exporter metrics = .ok (some report)) :
    ∃ disks consumers sockets,
      genDisksReport ((seek (named .socketPowerMicrowatts) metrics).2.filter isDiskMetric) =
        .ok disks ∧ report.host.disks = some disks ∧
      exporter.consumers.mapM (consumer reader exporter metrics) = .ok consumers ∧
      report.consumers = consumers.reduceOption ∧
      exporter.sockets.mapM
          (socket reader metrics (seek (named .socketPowerMicrowatts) metrics).1) = .ok sockets ∧
      report.sockets = sockets.reduceOption := by
  obtain ⟨disks, isDisks, afterDisks⟩ := bind_eq_ok written
  obtain ⟨found, isHost, afterHost⟩ := bind_eq_ok afterDisks
  obtain ⟨consumers, isConsumers, afterConsumers⟩ := bind_eq_ok afterHost
  obtain ⟨sockets, isSockets, assembled⟩ := bind_eq_ok afterConsumers
  cases found with
  | none => cases assembled
  | some found =>
      cases assembled
      exact ⟨disks, consumers, sockets, isDisks, disks_of_host isHost, isConsumers, rfl,
        isSockets, rfl⟩

end

end ScaphandreFormal.Exporters.Json
