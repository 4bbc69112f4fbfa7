import ScaphandreFormal.Exporters.Prometheus
import ScaphandreFormal.Foundation.Insertion
import ScaphandreFormal.Sensors.Discovery

/-!
# The metrics of a scrape

`MetricGenerator` makes metrics of what the topology holds.  Most of them have a fixed name,
a number as their value, and labels that the program makes itself.  Two kinds carry texts
from outside: the metrics of the disks, and those of the processes, with the command lines,
the names of virtual machines and the labels of containers.

Three metrics of a process have a list as their value, one number for each core.
-/

namespace ScaphandreFormal.Exporters

open Foundation
open Sensors.Powercap (DomainResource)

/-! ## Values -/

/-- What `to_string()` makes of a floating-point number. -/
inductive PrintedFloat where
  | nan
  | infinite (negative : Bool)
  | decimal (negative : Bool) (whole : Nat) (fraction : List (Fin 10))
  deriving DecidableEq, Repr

namespace PrintedFloat

def sign (negative : Bool) : Text := if negative then ['-'] else []

def digits (fraction : List (Fin 10)) : Text := fraction.map fun digit => Nat.digitChar digit.val

def text : PrintedFloat → Text
  | .nan => "NaN".toList
  | .infinite negative => sign negative ++ "inf".toList
  | .decimal negative whole [] => sign negative ++ toText whole
  | .decimal negative whole fraction => sign negative ++ (toText whole ++ '.' :: digits fraction)

end PrintedFloat

/-- The version in the manifest of the crate. -/
def crateVersion : Text := "1.0.0".toList

def getScaphandreVersion : Text :=
  let versionParts := crateVersion.splitOn '.'
  versionParts.getD 0 [] ++ '.' :: (versionParts.getD 1 [] ++ versionParts.getD 2 [])

/-- The values of the metrics that have a single number: the version, a number that stays one,
a number or a floating-point number as text, and the content of a counter file. -/
inductive Reading where
  | version
  | count (n : Nat)
  | number (n : Nat)
  | float (x : PrintedFloat)
  | counterFile (n : Nat) (newline : Bool)
  deriving DecidableEq, Repr

def Reading.value : Reading → MetricValueType
  | .version => .text getScaphandreVersion
  | .count n => .intUnsigned n
  | .number n => .text (toText n)
  | .float x => .text x.text
  | .counterFile n newline => .text (toText n ++ if newline then ['\n'] else [])

/-! ## Families -/

/-- The names under which metrics are pushed. -/
inductive Family where
  | selfVersion
  | selfCpuUsagePercent
  | selfMemoryVirtualBytes
  | selfMemoryBytes
  | selfTopoStatsNb
  | selfTopoRecordsNb
  | selfTopoProcsNb
  | selfSocketStatsNb
  | selfSocketRecordsNb
  | selfDomainRecordsNb
  | hostEnergyMicrojoules
  | hostPowerMicrowatts
  | hostIdlePowerMicrowatts
  | hostActivationPowerMicrowatts
  | hostBackgroundPowerMicrowatts
  | hostCorePowerMicrowatts
  | hostCoreCoefficient
  | hostCoreProportion
  | hostLoadAvgOne
  | hostLoadAvgFive
  | hostLoadAvgFifteen
  | hostCpuFrequency
  | hostDiskTotalBytes
  | hostDiskAvailableBytes
  | hostMemoryTotalBytes
  | hostMemoryAvailableBytes
  | hostMemoryFreeBytes
  | hostSwapFreeBytes
  | hostSwapTotalBytes
  | socketEnergyMicrojoules
  | socketPowerMicrowatts
  | socketIdlePowerMicrowatts
  | socketActivationPowerMicrowatts
  | socketBackgroundPowerMicrowatts
  | socketRaplMmioEnergyMicrojoules (socketId : Nat)
  | domainEnergyMicrojoules
  | domainPowerMicrowatts
  | domainRaplMmioEnergyMicrojoules (domainName : DomainResource) (socketId : Nat)
  | forksSinceBootTotal
  | processesRunningCurrent
  | processesBlockedCurrent
  | contextSwitchesTotal
  | processCpuUsagePercentage
  | processMemoryVirtualBytes
  | processMemoryBytes
  | processDiskWriteBytes
  | processDiskReadBytes
  | processDiskTotalWriteBytes
  | processDiskTotalReadBytes
  | processPowerConsumptionMicrowatts
  | processCoreTimeNs
  | processCoreTotalTimeNs
  | processCoreProportion
  deriving DecidableEq, Repr

namespace Family

def name : Family → Text
  | .selfVersion => "scaph_self_version".toList
  | .selfCpuUsagePercent => "scaph_self_cpu_usage_percent".toList
  | .selfMemoryVirtualBytes => "scaph_self_memory_virtual_bytes".toList
  | .selfMemoryBytes => "scaph_self_memory_bytes".toList
  | .selfTopoStatsNb => "scaph_self_topo_stats_nb".toList
  | .selfTopoRecordsNb => "scaph_self_topo_records_nb".toList
  | .selfTopoProcsNb => "scaph_self_topo_procs_nb".toList
  | .selfSocketStatsNb => "scaph_self_socket_stats_nb".toList
  | .selfSocketRecordsNb => "scaph_self_socket_records_nb".toList
  | .selfDomainRecordsNb => "scaph_self_domain_records_nb".toList
  | .hostEnergyMicrojoules => "scaph_host_energy_microjoules".toList
  | .hostPowerMicrowatts => "scaph_host_power_microwatts".toList
  | .hostIdlePowerMicrowatts => "scaph_host_idle_power_microwatts".toList
  | .hostActivationPowerMicrowatts => "scaph_host_activation_power_microwatts".toList
  | .hostBackgroundPowerMicrowatts => "scaph_host_background_power_microwatts".toList
  | .hostCorePowerMicrowatts => "scaph_host_core_power_microwatts".toList
  | .hostCoreCoefficient => "scaph_host_core_coefficient".toList
  | .hostCoreProportion => "scaph_host_core_proportion".toList
  | .hostLoadAvgOne => "scaph_host_load_avg_one".toList
  | .hostLoadAvgFive => "scaph_host_load_avg_five".toList
  | .hostLoadAvgFifteen => "scaph_host_load_avg_fifteen".toList
  | .hostCpuFrequency => "scaph_host_cpu_frequency".toList
  | .hostDiskTotalBytes => "scaph_host_disk_total_bytes".toList
  | .hostDiskAvailableBytes => "scaph_host_disk_available_bytes".toList
  | .hostMemoryTotalBytes => "scaph_host_memory_total_bytes".toList
  | .hostMemoryAvailableBytes => "scaph_host_memory_available_bytes".toList
  | .hostMemoryFreeBytes => "scaph_host_memory_free_bytes".toList
  | .hostSwapFreeBytes => "scaph_host_swap_free_bytes".toList
  | .hostSwapTotalBytes => "scaph_host_swap_total_bytes".toList
  | .socketEnergyMicrojoules => "scaph_socket_energy_microjoules".toList
  | .socketPowerMicrowatts => "scaph_socket_power_microwatts".toList
  | .socketIdlePowerMicrowatts => "scaph_socket_idle_power_microwatts".toList
  | .socketActivationPowerMicrowatts => "scaph_socket_activation_power_microwatts".toList
  | .socketBackgroundPowerMicrowatts => "scaph_socket_background_power_microwatts".toList
  | .socketRaplMmioEnergyMicrojoules _ => "scaph_socket_rapl_mmio_energy_microjoules".toList
  | .domainEnergyMicrojoules => "scaph_domain_energy_microjoules".toList
  | .domainPowerMicrowatts => "scaph_domain_power_microwatts".toList
  | .domainRaplMmioEnergyMicrojoules _ _ => "scaph_domain_rapl_mmio_energy_microjoules".toList
  | .forksSinceBootTotal => "scaph_forks_since_boot_total".toList
  | .processesRunningCurrent => "scaph_processes_running_current".toList
  | .processesBlockedCurrent => "scaph_processes_blocked_current".toList
  | .contextSwitchesTotal => "scaph_context_switches_total".toList
  | .processCpuUsagePercentage => "scaph_process_cpu_usage_percentage".toList
  | .processMemoryVirtualBytes => "scaph_process_memory_virtual_bytes".toList
  | .processMemoryBytes => "scaph_process_memory_bytes".toList
  | .processDiskWriteBytes => "scaph_process_disk_write_bytes".toList
  | .processDiskReadBytes => "scaph_process_disk_read_bytes".toList
  | .processDiskTotalWriteBytes => "scaph_process_disk_total_write_bytes".toList
  | .processDiskTotalReadBytes => "scaph_process_disk_total_read_bytes".toList
  | .processPowerConsumptionMicrowatts => "scaph_process_power_consumption_microwatts".toList
  | .processCoreTimeNs => "scaph_process_core_time_ns".toList
  | .processCoreTotalTimeNs => "scaph_process_core_total_time_ns".toList
  | .processCoreProportion => "scaph_process_core_proportion".toList

def metricType : Family → Text
  | .hostEnergyMicrojoules | .socketEnergyMicrojoules | .socketRaplMmioEnergyMicrojoules _
  | .domainEnergyMicrojoules | .domainRaplMmioEnergyMicrojoules _ _ | .forksSinceBootTotal
  | .contextSwitchesTotal => "counter".toList
  | _ => "gauge".toList

def description : Family → Text
  | .selfVersion => "Version number of scaphandre represented as a float.".toList
  | .selfCpuUsagePercent => "CPU time consumed by scaphandre, as Percentage".toList
  | .selfMemoryVirtualBytes => "Total program size, measured in Bytes.".toList
  | .selfMemoryBytes => "Resident set size, measured in bytes.".toList
  | .selfTopoStatsNb => "Number of CPUStat traces stored for the host.".toList
  | .selfTopoRecordsNb => "Number of energy consumption Records stored for the host.".toList
  | .selfTopoProcsNb => "Number of processes monitored for the host.".toList
  | .selfSocketStatsNb => "Number of CPUStat traces stored for each socket".toList
  | .selfSocketRecordsNb => "Number of energy consumption Records stored for each socket".toList
  | .selfDomainRecordsNb => "Number of energy consumption Records stored for a Domain".toList
  | .hostEnergyMicrojoules => "Energy measurement for the whole host, ".toList ++
      "as extracted from the sensor, in microjoules.".toList
  | .hostPowerMicrowatts => "Active power measurement on the whole host, in microwatts".toList
  | .hostIdlePowerMicrowatts => "Idle power measurement for the whole host, in microwatts".toList
  | .hostActivationPowerMicrowatts =>
      "Activation power measurement for the whole host, in microwatts".toList
  | .hostBackgroundPowerMicrowatts => "Background power (max of idle and activation) ".toList ++
      "for the whole host, in microwatts".toList
  | .hostCorePowerMicrowatts => "Per-core power consumption in microwatts".toList
  | .hostCoreCoefficient =>
      "Per-core IPC/frequency coefficient used for power attribution".toList
  | .hostCoreProportion =>
      "Per-core proportion of total power attributed to this core (0.0–1.0)".toList
  | .hostLoadAvgOne => "Load average on 1 minute.".toList
  | .hostLoadAvgFive => "Load average on 5 minutes.".toList
  | .hostLoadAvgFifteen => "Load average on 15 minutes.".toList
  | .hostCpuFrequency => "Global frequency of all the cpus. In MegaHertz".toList
  | .hostDiskTotalBytes => "Total disk size, in bytes.".toList
  | .hostDiskAvailableBytes => "Available disk space, in bytes.".toList
  | .hostMemoryTotalBytes => "Random Access Memory installed on the host, in bytes.".toList
  | .hostMemoryAvailableBytes =>
      "Random Access Memory available to be re-used on the host, in bytes.".toList
  | .hostMemoryFreeBytes =>
      "Random Access Memory free to be used (not reused) on the host, in bytes.".toList
  | .hostSwapFreeBytes => "Swap space free to be used on the host, in bytes.".toList
  | .hostSwapTotalBytes => "Total swap space on the host, in bytes.".toList
  | .socketEnergyMicrojoules => "Socket related energy measurement in microjoules.".toList
  | .socketPowerMicrowatts =>
      "Active power measurement relative to a CPU socket, in microwatts".toList
  | .socketIdlePowerMicrowatts =>
      "Idle power measurement relative to a CPU socket, in microwatts".toList
  | .socketActivationPowerMicrowatts =>
      "Activation power measurement relative to a CPU socket, in microwatts".toList
  | .socketBackgroundPowerMicrowatts => "Background power (max of idle and activation) ".toList ++
      "relative to a CPU socket, in microwatts".toList
  | .socketRaplMmioEnergyMicrojoules socketId =>
      "Energy counter from RAPL mmio interface for Package-0 of CPU socket ".toList ++
        toText socketId
  | .domainEnergyMicrojoules => "Domain related energy measurement in microjoules.".toList
  | .domainPowerMicrowatts => "Power measurement relative to a RAPL Domain, in microwatts".toList
  | .domainRaplMmioEnergyMicrojoules domainName socketId =>
      "Energy counter from RAPL mmio interface for the ".toList ++ domainName.text ++
        " domain, socket ".toList ++ toText socketId ++ ".".toList
  | .forksSinceBootTotal => "Number of forks that have occured since boot ".toList ++
      "(number of processes to have existed so far).".toList
  | .processesRunningCurrent => "Number of processes currently running.".toList
  | .processesBlockedCurrent => "Number of processes currently blocked waiting for I/O.".toList
  | .contextSwitchesTotal => "Number of context switches since boot.".toList
  | .processCpuUsagePercentage => "CPU time consumed by the process, ".toList ++
      "as a percentage of the capacity of all the CPU Cores".toList
  | .processMemoryVirtualBytes => "Virtual RAM usage by the process, in bytes".toList
  | .processMemoryBytes => "Physical RAM usage by the process, in bytes".toList
  | .processDiskWriteBytes => "Data written on disk by the process, in bytes".toList
  | .processDiskReadBytes => "Data read on disk by the process, in bytes".toList
  | .processDiskTotalWriteBytes => "Total data written on disk by the process, in bytes".toList
  | .processDiskTotalReadBytes => "Total data read on disk by the process, in bytes".toList
  | .processPowerConsumptionMicrowatts =>
      "Total data read on disk by the process, in bytes".toList
  | .processCoreTimeNs => "Per-core process busy time delta in nanoseconds ".toList ++
      "(CSV, indexed by logical CPU)".toList
  | .processCoreTotalTimeNs => "Per-core total CPU busy time delta in nanoseconds ".toList ++
      "(CSV, indexed by logical CPU)".toList
  | .processCoreProportion => "Per-core fraction of CPU time used by this process ".toList ++
      "(CSV, indexed by logical CPU)".toList

/-- The metric of the family with these attributes and this value. -/
def metric (family : Family) (attributes : List (Text × Text)) (value : MetricValueType) :
    Metric where
  name := family.name
  metricType := family.metricType
  attributes := attributes
  description := family.description
  metricValue := value

end Family

/-! ## Labels that the program makes -/

inductive ValueSource where
  | powercapRaplPsys
  | powercapRaplPkg
  | scaphandredrvRaplPkg
  | powercapRaplMmio
  deriving DecidableEq, Repr

def ValueSource.text : ValueSource → Text
  | .powercapRaplPsys => "powercap_rapl_psys".toList
  | .powercapRaplPkg => "powercap_rapl_pkg".toList
  | .scaphandredrvRaplPkg => "scaphandredrv_rapl_pkg".toList
  | .powercapRaplMmio => "powercap_rapl_mmio".toList

inductive OwnLabel where
  | socketId (id : Nat)
  | coreId (id : Nat)
  | domainId (id : Nat)
  | domainName (name : DomainResource)
  | raplDomainName (name : DomainResource)
  | valueSource (source : ValueSource)
  deriving DecidableEq, Repr

def OwnLabel.entry : OwnLabel → Text × Text
  | .socketId id => ("socket_id".toList, toText id)
  | .coreId id => ("core_id".toList, toText id)
  | .domainId id => ("domain_id".toList, toText id)
  | .domainName name => ("domain_name".toList, name.text)
  | .raplDomainName name => ("rapl_domain_name".toList, name.text)
  | .valueSource source => ("value_source".toList, source.text)

/-- A metric without any text from outside. -/
structure OwnMetric where
  family : Family
  labels : List OwnLabel
  reading : Reading
  deriving DecidableEq, Repr

def OwnMetric.metric (own : OwnMetric) : Metric :=
  own.family.metric (insertAll (own.labels.map OwnLabel.entry)) own.reading.value

/-! ## What is read -/

structure DomainReadings where
  id : Nat
  name : DomainResource
  records : List Reading
  power : Option Reading
  mmio : Option Reading
  deriving DecidableEq, Repr

structure SocketReadings where
  id : Nat
  statsNb : Nat
  records : List Reading
  power : Option Reading
  idlePower : Option Reading
  activationPower : Option Reading
  backgroundPower : Option Reading
  mmio : Option Reading
  domains : List DomainReadings
  deriving DecidableEq, Repr

inductive DiskType where
  | ssd
  | hdd
  | unknown
  deriving DecidableEq, Repr

/-- A disk; a text that is not valid UTF-8 is absent. -/
structure Disk where
  fileSystem : Option Text
  mountPoint : Option Text
  type : DiskType
  isRemovable : Bool
  name : Option Text
  totalSpace : Nat
  availableSpace : Nat
  deriving DecidableEq, Repr

/-- The path in a line of the cgroup file of a process. -/
structure Cgroup where
  pathname : Text
  single : '\n' ∉ pathname
  deriving DecidableEq

/-- A container that docker lists; the labels stand in the order in which the map yields
them. -/
structure Container where
  id : Text
  names : List Text
  labels : Option (List (Text × Text))
  deriving DecidableEq, Repr

/-- A pod, with the identifiers in the states of its containers. -/
structure Pod where
  containerStatuses : Option (List (Option Text))
  name : Option Text
  podNamespace : Option Text
  nodeName : Option Text
  deriving DecidableEq, Repr

/-- What is read of a process whenever its share of the processor time is known. -/
structure UsageReadings where
  cpuUsagePercentage : PrintedFloat
  memoryVirtual : Nat
  memory : Nat
  diskWritten : Nat
  diskRead : Nat
  totalDiskWritten : Nat
  totalDiskRead : Nat
  deriving DecidableEq, Repr

/-- The busy time on a core: that of the process, that of all of them, and the fraction. -/
structure CoreTime where
  process : Nat
  total : Nat
  proportion : PrintedFloat
  deriving DecidableEq, Repr

/-- What is read of a process.  The usage and the power are absent when the process has no
record. -/
structure ProcessReadings where
  pid : Nat
  exe : Text
  cmdline : Option Text
  cgroups : List Cgroup
  usage : Option UsageReadings
  power : Option PrintedFloat
  coreTimes : Option (List CoreTime)
  deriving DecidableEq

/-- What the generator holds and reads for a scrape. -/
structure Readings where
  hostname : Text
  selfCpuUsage : Option Reading
  selfMemoryVirtual : Option Nat
  selfMemory : Option Nat
  statsNb : Nat
  procsNb : Nat
  hasPsys : Bool
  hasSourceFile : Bool
  hasDriverName : Bool
  records : List Reading
  power : Option Reading
  idlePower : Option Reading
  activationPower : Option Reading
  backgroundPower : Option Reading
  corePowers : Option (List Reading)
  coreCoefs : List PrintedFloat
  coreProportions : List PrintedFloat
  loadAvg : Option (PrintedFloat × PrintedFloat × PrintedFloat)
  cpuFrequency : Nat
  disks : List Disk
  totalMemory : Nat
  availableMemory : Nat
  freeMemory : Nat
  freeSwap : Nat
  totalSwap : Nat
  sockets : List SocketReadings
  nbProcessTotal : Option Nat
  nbProcessRunning : Option Nat
  nbProcessBlocked : Option Nat
  nbContextSwitches : Option Nat
  qemu : Bool
  watchContainers : Bool
  containers : List Container
  dockerVersion : Text
  pods : List Pod
  processes : List ProcessReadings
  deriving DecidableEq

/-! ## The metrics of the program itself, the host, the sockets and the system -/

namespace SocketReadings

/-- The part of `gen_self_metrics` for a socket. -/
def genSelfMetrics (socket : SocketReadings) : List OwnMetric :=
  ⟨.selfSocketStatsNb, [.socketId socket.id], .count socket.statsNb⟩ ::
    ⟨.selfSocketRecordsNb, [.socketId socket.id], .count socket.records.length⟩ ::
      socket.domains.map fun domain =>
        ⟨.selfDomainRecordsNb, [.socketId socket.id, .raplDomainName domain.name],
          .count domain.records.length⟩

/-- The part of `gen_socket_metrics` for a domain. -/
def genDomainMetrics (socket : SocketReadings) (domain : DomainReadings) : List OwnMetric :=
  match domain.records.getLast? with
  | some record =>
      let attributes :=
        [.domainName domain.name, .domainId domain.id, .socketId socket.id]
      let mmioAttributes := attributes ++ [.valueSource .powercapRaplMmio]
      ⟨.domainEnergyMicrojoules, attributes, record⟩ ::
        (domain.power.map (⟨.domainPowerMicrowatts, attributes, ·⟩)).toList ++
          (domain.mmio.map
            (⟨.domainRaplMmioEnergyMicrojoules domain.name socket.id, mmioAttributes, ·⟩)).toList
  | none => []

/-- The part of `gen_socket_metrics` for a socket. -/
def genSocketMetrics (socket : SocketReadings) : List OwnMetric :=
  let attributes := [.socketId socket.id]
  let own :=
    match socket.records.getLast? with
    | some record =>
        ⟨.socketEnergyMicrojoules, attributes, record⟩ ::
          (socket.power.map (⟨.socketPowerMicrowatts, attributes, ·⟩)).toList ++
          (socket.idlePower.map (⟨.socketIdlePowerMicrowatts, attributes, ·⟩)).toList ++
          (socket.activationPower.map (⟨.socketActivationPowerMicrowatts, attributes, ·⟩)).toList ++
          (socket.backgroundPower.map (⟨.socketBackgroundPowerMicrowatts, attributes, ·⟩)).toList
    | none => []
  own ++
    (socket.mmio.map (⟨.socketRaplMmioEnergyMicrojoules socket.id, attributes, ·⟩)).toList ++
    socket.domains.flatMap socket.genDomainMetrics

end SocketReadings

/-- A metric for each core. -/
def perCoreMetrics (family : Family) (values : List Reading) : List OwnMetric :=
  values.mapIdx fun id value => ⟨family, [.coreId id], value⟩

namespace Readings

def genSelfMetrics (readings : Readings) : List OwnMetric :=
  ⟨.selfVersion, [], .version⟩ ::
    (readings.selfCpuUsage.map (⟨.selfCpuUsagePercent, [], ·⟩)).toList ++
    (readings.selfMemoryVirtual.map (⟨.selfMemoryVirtualBytes, [], .count ·⟩)).toList ++
    (readings.selfMemory.map (⟨.selfMemoryBytes, [], .count ·⟩)).toList ++
    [⟨.selfTopoStatsNb, [], .count readings.statsNb⟩,
      ⟨.selfTopoRecordsNb, [], .count readings.records.length⟩,
      ⟨.selfTopoProcsNb, [], .count readings.procsNb⟩] ++
    readings.sockets.flatMap SocketReadings.genSelfMetrics

/-- The label that says where the power of the host comes from. -/
def valueSource (readings : Readings) : List OwnLabel :=
  if readings.hasPsys then [.valueSource .powercapRaplPsys]
  else if readings.hasSourceFile then [.valueSource .powercapRaplPkg]
  else if readings.hasDriverName then [.valueSource .scaphandredrvRaplPkg]
  else []

/-- `gen_host_metrics` before the disks. -/
def genHostMetricsBeforeDisks (readings : Readings) : List OwnMetric :=
  let power :=
    match readings.records.getLast? with
    | some record =>
        ⟨.hostEnergyMicrojoules, readings.valueSource, record⟩ ::
          (readings.power.map (⟨.hostPowerMicrowatts, readings.valueSource, ·⟩)).toList ++
          (readings.idlePower.map (⟨.hostIdlePowerMicrowatts, [], ·⟩)).toList ++
          (readings.activationPower.map (⟨.hostActivationPowerMicrowatts, [], ·⟩)).toList ++
          (readings.backgroundPower.map (⟨.hostBackgroundPowerMicrowatts, [], ·⟩)).toList ++
          perCoreMetrics .hostCorePowerMicrowatts (readings.corePowers.getD []) ++
          perCoreMetrics .hostCoreCoefficient (readings.coreCoefs.map .float) ++
          perCoreMetrics .hostCoreProportion (readings.coreProportions.map .float)
    | none => []
  let load :=
    match readings.loadAvg with
    | some (one, five, fifteen) =>
        [⟨.hostLoadAvgOne, [], .float one⟩, ⟨.hostLoadAvgFive, [], .float five⟩,
          ⟨.hostLoadAvgFifteen, [], .float fifteen⟩]
    | none => []
  power ++ load ++ [⟨.hostCpuFrequency, [], .number readings.cpuFrequency⟩]

/-- `gen_host_metrics` after the disks. -/
def genHostMetricsAfterDisks (readings : Readings) : List OwnMetric :=
  [⟨.hostMemoryTotalBytes, [], .number readings.totalMemory⟩,
    ⟨.hostMemoryAvailableBytes, [], .number readings.availableMemory⟩,
    ⟨.hostMemoryFreeBytes, [], .number readings.freeMemory⟩,
    ⟨.hostSwapFreeBytes, [], .number readings.freeSwap⟩,
    ⟨.hostSwapTotalBytes, [], .number readings.totalSwap⟩]

def genSocketMetrics (readings : Readings) : List OwnMetric :=
  readings.sockets.flatMap SocketReadings.genSocketMetrics

def genSystemMetrics (readings : Readings) : List OwnMetric :=
  (readings.nbProcessTotal.map (⟨.forksSinceBootTotal, [], .count ·⟩)).toList ++
    (readings.nbProcessRunning.map (⟨.processesRunningCurrent, [], .count ·⟩)).toList ++
    (readings.nbProcessBlocked.map (⟨.processesBlockedCurrent, [], .count ·⟩)).toList ++
    (readings.nbContextSwitches.map (⟨.contextSwitchesTotal, [], .count ·⟩)).toList

end Readings

/-! ## Disks -/

def DiskType.text : DiskType → Text
  | .ssd => "SSD".toList
  | .hdd => "HDD".toList
  | .unknown => "Unknown".toList

namespace Disk

def attributes (disk : Disk) : List (Text × Text) :=
  insertAll (optionalEntry "disk_file_system".toList disk.fileSystem ++
    optionalEntry "disk_mount_point".toList disk.mountPoint ++
    [("disk_type".toList, disk.type.text),
      ("disk_is_removable".toList, if disk.isRemovable then "true".toList else "false".toList)] ++
    optionalEntry "disk_name".toList disk.name)

/-- What is inserted for a disk. -/
def insertions (disk : Disk) : List (Family × (List (Text × Text) × Nat)) :=
  [(.hostDiskTotalBytes, (disk.attributes, disk.totalSpace)),
    (.hostDiskAvailableBytes, (disk.attributes, disk.availableSpace))]

end Disk

/-- `get_disks`: the map has one entry for each name, whatever the number of disks. -/
def getDisks (disks : List Disk) : List (Family × (List (Text × Text) × Nat)) :=
  insertAll (disks.flatMap Disk.insertions)

def diskMetrics (disks : List Disk) : List Metric :=
  (getDisks disks).map fun entry => entry.1.metric entry.2.1 (.text (toText entry.2.2))

/-! ## Containers -/

/-- The regular expression has a dot where any character may stand. -/
def startsLike : Text → Text → Bool
  | [], _ => true
  | _, [] => false
  | wanted :: pattern, c :: text => (wanted = '.' || wanted = c) && startsLike pattern text

/-- `^.*/docker.*$`, on one line. -/
def regexCgroupDocker (pathname : Text) : Bool := "/docker".toList <:+: pathname

/-- `^/kubepods.*$`, on one line. -/
def regexCgroupKubernetes (pathname : Text) : Bool := "/kubepods".toList <+: pathname

/-- `/system.slice/containerd.service/.*$`, on one line. -/
def regexCgroupContainerd (pathname : Text) : Bool :=
  pathname.tails.any (startsLike "/system.slice/containerd.service/".toList)

/-- The first match of `[[:alnum:]]{12,}`. -/
def regexCleanContainerId : Text → Option Text
  | [] => none
  | c :: rest =>
      if 12 ≤ ((c :: rest).takeWhile Char.isAlphanum).length then
        some ((c :: rest).takeWhile Char.isAlphanum)
      else regexCleanContainerId rest

def withoutStart (start text : Text) : Text :=
  if start <+: text then text.drop start.length else text

def withoutEnd (ending text : Text) : Text :=
  if ending <:+ text then text.take (text.length - ending.length) else text

def extractPodIdFromCgroupPath (pathname : Text) : Text :=
  let last := (pathname.splitOn '/').getLastD []
  let containerId := withoutEnd ".scope".toList (withoutStart "docker-".toList last)
  if "cri-containerd".toList <:+: containerId then (containerId.splitOn ':').getLastD []
  else containerId

def escapeList : List Char := ['-', '.', ':', ' ']

/-- The name of the label for a label of a container. -/
def labelKey (key : Text) : Text :=
  "container_label_".toList ++
    escapeList.foldl (fun key escaped => key.map fun c => if c = escaped then '_' else c) key

namespace Pod

/-- One of the containers of the pod has the identifier. -/
def runs (pod : Pod) (containerId : Text) : Bool :=
  (pod.containerStatuses.getD []).any fun status =>
    match status with
    | some id =>
        if "docker://".toList <+: id then id.drop "docker://".toList.length = containerId
        else if "containerd://".toList <+: id then
          id.drop "containerd://".toList.length = containerId
        else false
    | none => false

/-- What is inserted for a pod. -/
def insertions (pod : Pod) : List (Text × Text) :=
  ("container_scheduler".toList, "kubernetes".toList) ::
    optionalEntry "kubernetes_pod_name".toList pod.name ++
    optionalEntry "kubernetes_pod_namespace".toList pod.podNamespace ++
    optionalEntry "kubernetes_node_name".toList pod.nodeName

end Pod

namespace Container

/-- The names run together, without slashes. -/
def joinedNames (container : Container) : Text :=
  container.names.flatMap fun name => (trim name).filter (· ≠ '/')

def labelInsertions (container : Container) : List (Text × Text) :=
  (container.labels.getD []).map fun label => (labelKey label.1, label.2)

/-- What is inserted for a container. -/
def insertions (container : Container) (dockerVersion : Text) : List (Text × Text) :=
  ("container_names".toList, container.joinedNames) ::
    ("container_docker_version".toList, dockerVersion) :: container.labelInsertions

end Container

namespace Readings

/-- What is inserted for the identifier of a docker container. -/
def dockerInsertions (readings : Readings) (containerId : Text) : List (Text × Text) :=
  ("container_id".toList, containerId) ::
    match readings.containers.find? (·.id = containerId) with
    | some container => container.insertions readings.dockerVersion
    | none => []

/-- What is inserted for the identifier of another container. -/
def podInsertions (readings : Readings) (containerId : Text) : List (Text × Text) :=
  ("container_id".toList, containerId) ::
    match readings.pods.find? (·.runs containerId) with
    | some pod => pod.insertions
    | none => []

/-- The loop of `get_process_container_description` over the cgroups. -/
def describeCgroups (readings : Readings) : List Cgroup → List (Text × Text)
  | [] => []
  | cg :: cgroups =>
      if regexCgroupDocker cg.pathname then
        ("container_scheduler".toList, "docker".toList) ::
          match regexCleanContainerId cg.pathname with
          | some containerId => readings.dockerInsertions containerId
          | none => describeCgroups readings cgroups
      else if regexCgroupContainerd cg.pathname then
        ("container_runtime".toList, "containerd".toList) ::
          readings.podInsertions (extractPodIdFromCgroupPath cg.pathname)
      else if regexCgroupKubernetes cg.pathname then
        readings.podInsertions (extractPodIdFromCgroupPath cg.pathname)
      else describeCgroups readings cgroups

def getProcessContainerDescription (readings : Readings) (process : ProcessReadings) :
    List (Text × Text) :=
  insertAll (readings.describeCgroups process.cgroups)

end Readings

/-! ## Processes -/

/-- Returns a cmdline filtered from potential characters that could break exporters output. -/
def filterCmdline (cmdline : Text) : Text :=
  (cmdline.flatMap fun c => if c = '"' then ['\\', '"'] else [c]).filter (· ≠ '\n')

/-- The text around the first occurrence of the pattern. -/
def cutAt (pattern : Text) : Text → Option (Text × Text)
  | [] => none
  | c :: rest =>
      if pattern <+: c :: rest then some ([], (c :: rest).drop pattern.length)
      else (cutAt pattern rest).map fun parts => (c :: parts.1, parts.2)

/-- `cmdline.split("guest=")` at the index 1. -/
def secondPiece (cmdline : Text) : Option Text :=
  (cutAt "guest=".toList cmdline).map fun parts =>
    ((cutAt "guest=".toList parts.2).map Prod.fst).getD parts.2

/-- Returns the VM name of a qemu process. -/
def filterQemuCmdline (cmdline : Text) : Option Text :=
  if "qemu-system".toList <:+: cmdline then
    match secondPiece cmdline with
    | some piece =>
        match piece.splitOn ',' with
        | vmname :: _ :: _ => if vmname.isEmpty then none else some vmname
        | _ => none
    | none => none
  else none

namespace ProcessReadings

/-- The three metrics with a number for each core. -/
def coreTimeMetrics (times : List CoreTime) : List (Family × Text) :=
  [(.processCoreTimeNs, [','].intercalate (times.map fun time => toText time.process)),
    (.processCoreTotalTimeNs, [','].intercalate (times.map fun time => toText time.total)),
    (.processCoreProportion, [','].intercalate (times.map fun time => time.proportion.text))]

def usageMetrics (usage : UsageReadings) : List (Family × Text) :=
  [(.processCpuUsagePercentage, usage.cpuUsagePercentage.text),
    (.processMemoryVirtualBytes, toText usage.memoryVirtual),
    (.processMemoryBytes, toText usage.memory),
    (.processDiskWriteBytes, toText usage.diskWritten),
    (.processDiskReadBytes, toText usage.diskRead),
    (.processDiskTotalWriteBytes, toText usage.totalDiskWritten),
    (.processDiskTotalReadBytes, toText usage.totalDiskRead)]

def powerMetrics (process : ProcessReadings) (power : PrintedFloat) : List (Family × Text) :=
  (.processPowerConsumptionMicrowatts, power.text) ::
    (process.coreTimes.map coreTimeMetrics).getD []

def getAllPerProcess (process : ProcessReadings) : List (Family × Text) :=
  (process.usage.map usageMetrics).getD [] ++ (process.power.map process.powerMetrics).getD []

end ProcessReadings

namespace Readings

/-- The attributes come from a container only when one is watched. -/
def containerInsertions (readings : Readings) (process : ProcessReadings) : List (Text × Text) :=
  if readings.watchContainers && (!readings.containers.isEmpty || !readings.pods.isEmpty) then
    readings.getProcessContainerDescription process
  else []

/-- What is inserted for the command line. -/
def cmdlineInsertions (readings : Readings) (cmdline : Text) : List (Text × Text) :=
  ("cmdline".toList, filterCmdline cmdline) ::
    if readings.qemu then optionalEntry "vmname".toList (filterQemuCmdline cmdline) else []

/-- What is inserted for every process. -/
def processInsertions (readings : Readings) (process : ProcessReadings) : List (Text × Text) :=
  ("pid".toList, toText process.pid) :: ("exe".toList, process.exe) ::
    (process.cmdline.map readings.cmdlineInsertions).getD []

def processAttributes (readings : Readings) (process : ProcessReadings) : List (Text × Text) :=
  insertAll (readings.containerInsertions process ++ readings.processInsertions process)

def genProcessMetrics (readings : Readings) : List Metric :=
  readings.processes.flatMap fun process =>
    process.getAllPerProcess.map fun entry =>
      entry.1.metric (readings.processAttributes process) (.text entry.2)

def genHostMetrics (readings : Readings) : List Metric :=
  readings.genHostMetricsBeforeDisks.map OwnMetric.metric ++ diskMetrics readings.disks ++
    readings.genHostMetricsAfterDisks.map OwnMetric.metric

/-- Generate all metrics provided by the agent. -/
def genAllMetrics (readings : Readings) : List Metric :=
  readings.genSelfMetrics.map OwnMetric.metric ++ readings.genHostMetrics ++
    readings.genSocketMetrics.map OwnMetric.metric ++
    readings.genSystemMetrics.map OwnMetric.metric ++ readings.genProcessMetrics

end Readings

end ScaphandreFormal.Exporters
