import ScaphandreFormal.Foundation.Trace
import ScaphandreFormal.Sensors.Conservation
import ScaphandreFormal.Sensors.HostEnergy
import ScaphandreFormal.Sensors.TrackerInvariant

/-!
# The topologies that the exporters drive

An exporter drives the topology that the sensor built, or a clone of it.  A clone
has the data but not the handles: eBPF maps, ring buffer and perf counters cannot
be cloned.  It therefore reports what the topology of the sensor would report if
the kernel had nothing to offer through these handles.
-/

namespace ScaphandreFormal.Exporters

open Foundation Ebpf Sensors

variable {F Trace : Type} [Float64 F]

/-! ## Kernel inputs and handles -/

/-- Which interfaces of the kernel the topology and its cores hold, the perf counters by
socket and core. -/
structure Handles where
  cpuStateBuffer : Bool
  cpuTimeMap : Bool
  coreTimesMap : Bool
  instructions : Nat → Nat → Bool
  cycles : Nat → Nat → Bool

def Handles.absent : Handles :=
  ⟨false, false, false, fun _ _ => false, fun _ _ => false⟩

/-- What the kernel offers to one refresh.  `PID_TIMES` stands with the processes, the perf
counters with the cores. -/
structure KernelInput (F Trace : Type) where
  now : Nat
  events : List CpuStateEvent
  socketReading : Nat → SocketReading
  coreReading : Nat → Nat → CoreRecord F
  processes : List (Nat × IProcess Trace)
  cpuTime : Nat → Option Nat
  energy : Option (Record Text)

/-- The record of a core with the perf counters that can be read, the others being zero. -/
def withCounters (instructions cycles : Bool) (reading : CoreRecord F) : CoreRecord F :=
  { reading with
    instructions := if instructions then reading.instructions else Float64.ofU64 0
    cycles := if cycles then reading.cycles else Float64.ofU64 0 }

/-- The process with its core times, when their map can be read. -/
def withCoreTimes (coreTimesMap : Bool) (process : IProcess Trace) : IProcess Trace :=
  { process with coreBusyTimes := if coreTimesMap then process.coreBusyTimes else none }

/-- What a refresh reads through the handles. -/
def Handles.read (handles : Handles) (kernel : KernelInput F Trace) : RefreshInput F Trace where
  now := kernel.now
  drained := if handles.cpuStateBuffer then kernel.events else []
  socketReading := kernel.socketReading
  coreReading := fun socket core => withCounters (handles.instructions socket core)
    (handles.cycles socket core) (kernel.coreReading socket core)
  processes := kernel.processes.map fun seen =>
    (seen.1, withCoreTimes handles.coreTimesMap seen.2)
  cpuTime := if handles.cpuTimeMap then some kernel.cpuTime else none
  energy := kernel.energy

inductive DriveEvent (F Trace : Type) where
  | cleanTerminated (status : Nat → Option ProcessStatus)
  | refresh (kernel : KernelInput F Trace)

/-- A topology together with its handles. -/
structure Driven (F Trace : Type) where
  topology : Topology F Trace
  handles : Handles

namespace Driven

/-- `Topology::clone`, with the clones of its tracker and its cores. -/
def clone (driven : Driven F Trace) : Driven F Trace where
  topology := driven.topology
  handles := .absent

/-- The measure loop of an exporter: terminated processes are cleaned, then all is read. -/
def step (driven : Driven F Trace) : DriveEvent F Trace → Driven F Trace
  | .cleanTerminated status =>
      { driven with
        topology := { driven.topology with
          procTracker := driven.topology.procTracker.cleanTerminatedProcessRecordsVectors status } }
  | .refresh kernel =>
      { driven with topology := driven.topology.refresh (driven.handles.read kernel) }

end Driven

/-! ## The power of a process -/

/-- The field `cpu_usage_percentage` of `IProcess`, which nothing but the next two functions
reads. -/
structure ProcessUsage (F : Type) where
  cpuUsagePercentage : F

def getProcessCpuUsagePercentage (topology : Topology F (ProcessUsage F)) (pid : Nat) :
    Option (Record F) :=
  (topology.procTracker.getProcessLastRecord pid).map fun record =>
    ⟨record.timestamp, Float64.div record.process.trace.cpuUsagePercentage
      (Float64.ofU64 topology.procTracker.nbCores), .percentage⟩

/-- Its unwraps do not fail: the percentage is there with the record, and the power is a
printed `u64`. -/
def getProcessPowerConsumptionMicrowatts (now : Nat) (topology : Topology F (ProcessUsage F))
    (pid : Nat) : Option (Record F) :=
  match topology.procTracker.getProcessLastRecord pid, getProcessCpuUsagePercentage topology pid,
      topology.getRecordsDiffPowerMicrowatts now with
  | some record, some processCpuPercentage, some conso =>
      some ⟨record.timestamp, Float64.div
        (Float64.mul (floatOrZero (some conso)) processCpuPercentage.value)
        (Float64.ofU64 100), .microWatt⟩
  | _, _, _ => none

inductive Exporter where
  | stdout
  | json
  | warp10
  | prometheus
  | prometheusPush
  | riemann
  deriving DecidableEq, Repr

namespace Exporter

/-- What the exporter drives: `run` of the two Prometheus exporters starts with a clone. -/
def start (exporter : Exporter) (driven : Driven F Trace) : Driven F Trace :=
  match exporter with
  | .prometheus | .prometheusPush => driven.clone
  | .stdout | .json | .warp10 | .riemann => driven

/-- The value shown under `scaph_process_power_consumption_microwatts`. -/
def processPower (exporter : Exporter) (now : Nat) (topology : Topology F (ProcessUsage F))
    (pid : Nat) : Except Panic (Option F) :=
  match exporter with
  | .riemann => .ok ((getProcessPowerConsumptionMicrowatts now topology pid).map Record.value)
  | _ => (topology.getAllPerProcess now pid).map fun metrics =>
      metrics.findSome? Topology.powerValue

/-- The power that the exporter reports of a process after a run. -/
def reported (exporter : Exporter) (driven : Driven F (ProcessUsage F))
    (events : List (DriveEvent F (ProcessUsage F))) (now pid : Nat) : Except Panic (Option F) :=
  exporter.processPower now (run Driven.step (exporter.start driven) events).topology pid

end Exporter

/-! ## Inputs that a clone can read -/

/-- The same inputs without events, core times and perf counters. -/
def KernelInput.bare (kernel : KernelInput F Trace) : KernelInput F Trace :=
  { kernel with
    events := []
    coreReading := fun socket core => withCounters false false (kernel.coreReading socket core)
    processes := kernel.processes.map fun seen => (seen.1, withCoreTimes false seen.2) }

def DriveEvent.bare : DriveEvent F Trace → DriveEvent F Trace
  | .cleanTerminated status => .cleanTerminated status
  | .refresh kernel => .refresh kernel.bare

/-- No record has core times. -/
def Untimed (tracker : ProcessTracker Trace) : Prop :=
  ∀ vector ∈ tracker.procs, ∀ record ∈ vector, record.process.coreBusyTimes = none

/-- The topology but for the records of `CPU_TIME`. -/
def withoutCpuTime (topology : Topology F Trace) : Topology F Trace :=
  { topology with cpuTimeBuffer := [] }

theorem withoutCpuTime_refresh (topology : Topology F Trace) (input : RefreshInput F Trace) :
    withoutCpuTime (topology.refresh input) =
      (withoutCpuTime topology).refresh { input with cpuTime := none } := by
  unfold Topology.refresh Topology.refreshRecord Topology.refreshCpuTimeRecord
  cases input.cpuTime with
  | none => rfl
  | some map => rfl

theorem withCounters_bare (instructions cycles : Bool) (reading : CoreRecord F) :
    withCounters instructions cycles (withCounters false false reading) =
      withCounters false false reading := by
  cases instructions <;> cases cycles <;> rfl

omit [Float64 F] in
theorem withCoreTimes_bare (coreTimesMap : Bool) (process : IProcess Trace) :
    withCoreTimes coreTimesMap (withCoreTimes false process) = withCoreTimes false process := by
  cases coreTimesMap <;> rfl

/-- A bare input is read alike through all handles, `CPU_TIME` apart. -/
theorem read_bare (handles : Handles) (kernel : KernelInput F Trace) :
    { handles.read kernel.bare with cpuTime := none } = Handles.absent.read kernel := by
  have events : (if handles.cpuStateBuffer then ([] : List CpuStateEvent) else []) = [] := by
    split <;> rfl
  have processes : (kernel.processes.map fun seen => (seen.1, withCoreTimes false seen.2)).map
        (fun seen => (seen.1, withCoreTimes handles.coreTimesMap seen.2)) =
      kernel.processes.map fun seen => (seen.1, withCoreTimes false seen.2) := by
    rw [List.map_map]
    apply List.map_congr_left
    intro seen _
    simp only [Function.comp_apply, withCoreTimes_bare]
  unfold Handles.read KernelInput.bare Handles.absent
  simp only [events, processes, withCounters_bare]
  rfl

/-! ## The simulation -/

omit [Float64 F] in
theorem untimed_addProcessRecord {tracker : ProcessTracker Trace} (untimed : Untimed tracker)
    {process : IProcess Trace} (unread : process.coreBusyTimes = none) (now : Nat) :
    Untimed (tracker.addProcessRecord now process) := by
  intro vector member record isRecord
  rcases ProcessTracker.mem_addToVectors member with old | rfl | ⟨old, found, rfl⟩
  · exact untimed vector old record isRecord
  · rw [List.mem_singleton.mp isRecord]
    exact unread
  · rcases ProcessTracker.mem_kept_of_mem_insertRecord isRecord with rfl | ⟨kept, _⟩
    · exact unread
    · exact untimed old (List.mem_of_find?_eq_some found) record kept

omit [Float64 F] in
theorem untimed_foldl {tracker : ProcessTracker Trace} (untimed : Untimed tracker)
    (processes : List (Nat × IProcess Trace)) :
    Untimed ((processes.map fun seen => (seen.1, withCoreTimes false seen.2)).foldl
      (fun tracker seen => tracker.addProcessRecord seen.1 seen.2) tracker) := by
  induction processes generalizing tracker with
  | nil => exact untimed
  | cons seen rest ih => exact ih (untimed_addProcessRecord untimed rfl seen.1)

omit [Float64 F] in
theorem untimed_cleanTerminated {tracker : ProcessTracker Trace} (untimed : Untimed tracker)
    (status : Nat → Option ProcessStatus) :
    Untimed (tracker.cleanTerminatedProcessRecordsVectors status) := by
  intro vector member record isRecord
  rcases ProcessTracker.mem_cleanTerminated member with rfl | old
  · exact absurd isRecord List.not_mem_nil
  · exact untimed vector old record isRecord

/-- The two topologies agree but for `CPU_TIME`, no process has core times, and the second one
has no handles. -/
structure Alike (direct cloned : Driven F Trace) : Prop where
  topology : withoutCpuTime direct.topology = withoutCpuTime cloned.topology
  untimed : Untimed cloned.topology.procTracker
  handles : cloned.handles = .absent

omit [Float64 F] in
theorem alike_clone {driven : Driven F Trace} (untimed : Untimed driven.topology.procTracker) :
    Alike driven driven.clone :=
  ⟨rfl, untimed, rfl⟩

theorem Alike.step {direct cloned : Driven F Trace} (alike : Alike direct cloned)
    (event : DriveEvent F Trace) : Alike (direct.step event.bare) (cloned.step event) := by
  cases event with
  | cleanTerminated status =>
      have cleaned : ∀ topology : Topology F Trace,
          withoutCpuTime { topology with
            procTracker := topology.procTracker.cleanTerminatedProcessRecordsVectors status } =
          { withoutCpuTime topology with
            procTracker :=
              (withoutCpuTime topology).procTracker.cleanTerminatedProcessRecordsVectors status } :=
        fun topology => rfl
      refine ⟨?_, untimed_cleanTerminated alike.untimed status, alike.handles⟩
      exact (cleaned direct.topology).trans (alike.topology ▸ (cleaned cloned.topology).symm)
  | refresh kernel =>
      have read : (cloned.step (.refresh kernel)).topology =
          cloned.topology.refresh (Handles.absent.read kernel) := by
        rw [← alike.handles]
        rfl
      refine ⟨?_, ?_, alike.handles⟩
      · calc withoutCpuTime (direct.step (.refresh kernel.bare)).topology
            = (withoutCpuTime direct.topology).refresh
                { direct.handles.read kernel.bare with cpuTime := none } :=
              withoutCpuTime_refresh _ _
          _ = (withoutCpuTime cloned.topology).refresh
                { Handles.absent.read kernel with cpuTime := none } := by
              rw [read_bare, alike.topology]
              rfl
          _ = withoutCpuTime (cloned.step (.refresh kernel)).topology := by
              rw [read, withoutCpuTime_refresh]
      · rw [read, Topology.procTracker_refresh]
        exact untimed_foldl alike.untimed kernel.processes

theorem getProcessCoreTimeData_of_untimed {topology : Topology F Trace}
    (untimed : Untimed topology.procTracker) (pid : Nat) :
    topology.getProcessCoreTimeData pid = .ok none := by
  apply Topology.getProcessCoreTimeData_of_absent
  refine Or.inl ?_
  unfold ProcessTracker.getPerCoreCpuTimeDelta
  split
  · rename_i last prev older found
    have newest := untimed _ (ProcessTracker.findRecords_mem found).1 last List.mem_cons_self
    rw [newest]
  · rfl

/-- Without core times, what is shown of a process does not depend on `CPU_TIME`. -/
theorem getAllPerProcess_withoutCpuTime (now : Nat) {topology : Topology F Trace}
    (untimed : Untimed topology.procTracker) (pid : Nat) :
    topology.getAllPerProcess now pid = (withoutCpuTime topology).getAllPerProcess now pid := by
  have data := getProcessCoreTimeData_of_untimed untimed pid
  have untimedWithout : Untimed (withoutCpuTime topology).procTracker := untimed
  have dataWithout := getProcessCoreTimeData_of_untimed untimedWithout pid
  unfold Topology.getAllPerProcess Topology.getProcessCoreProportions
  rw [data, dataWithout]
  rfl

theorem Alike.getAllPerProcess {direct cloned : Driven F Trace} (alike : Alike direct cloned)
    (now pid : Nat) :
    direct.topology.getAllPerProcess now pid = cloned.topology.getAllPerProcess now pid := by
  have tracker : direct.topology.procTracker = cloned.topology.procTracker := by
    change (withoutCpuTime direct.topology).procTracker =
      (withoutCpuTime cloned.topology).procTracker
    rw [alike.topology]
  have untimed : Untimed direct.topology.procTracker := tracker ▸ alike.untimed
  rw [getAllPerProcess_withoutCpuTime now untimed, alike.topology,
    ← getAllPerProcess_withoutCpuTime now alike.untimed]

theorem alike_run {driven : Driven F Trace} (untimed : Untimed driven.topology.procTracker)
    (events : List (DriveEvent F Trace)) :
    Alike (run Driven.step driven (events.map DriveEvent.bare))
      (run Driven.step driven.clone events) := by
  have mapped : run Driven.step driven (events.map DriveEvent.bare) =
      run (fun driven event => Driven.step driven event.bare) driven events :=
    List.foldl_map
  rw [mapped]
  exact related_run Alike (fun _ _ event _ alike => alike.step event) (alike_clone untimed)

/-! ## What the exporters report -/

namespace Exporter

/-- The exporters that drive a clone. -/
def Clones (exporter : Exporter) : Prop :=
  exporter = .prometheus ∨ exporter = .prometheusPush

/-- The exporters that drive the topology of the sensor and show `get_all_per_process`. -/
def Direct (exporter : Exporter) : Prop :=
  exporter = .stdout ∨ exporter = .json ∨ exporter = .warp10

instance (exporter : Exporter) : Decidable exporter.Clones :=
  inferInstanceAs (Decidable (_ ∨ _))

instance (exporter : Exporter) : Decidable exporter.Direct :=
  inferInstanceAs (Decidable (_ ∨ _ ∨ _))

theorem reported_of_direct {exporter : Exporter} (direct : exporter.Direct)
    (driven : Driven F (ProcessUsage F)) (events : List (DriveEvent F (ProcessUsage F)))
    (now pid : Nat) :
    exporter.reported driven events now pid =
      ((run Driven.step driven events).topology.getAllPerProcess now pid).map
        fun metrics => metrics.findSome? Topology.powerValue := by
  rcases direct with rfl | rfl | rfl <;> rfl

theorem reported_of_clones {exporter : Exporter} (clones : exporter.Clones)
    (driven : Driven F (ProcessUsage F)) (events : List (DriveEvent F (ProcessUsage F)))
    (now pid : Nat) :
    exporter.reported driven events now pid =
      ((run Driven.step driven.clone events).topology.getAllPerProcess now pid).map
        fun metrics => metrics.findSome? Topology.powerValue := by
  rcases clones with rfl | rfl <;> rfl

theorem reported_of_riemann (driven : Driven F (ProcessUsage F))
    (events : List (DriveEvent F (ProcessUsage F))) (now pid : Nat) :
    riemann.reported driven events now pid =
      .ok (((run Driven.step driven events).topology.procTracker.getProcessLastRecord pid).bind
        fun record =>
          ((run Driven.step driven events).topology.getRecordsDiffPowerMicrowatts now).map
            fun conso => Float64.div (Float64.mul (floatOrZero (some conso))
              (Float64.div record.process.trace.cpuUsagePercentage
                (Float64.ofU64 (run Driven.step driven events).topology.procTracker.nbCores)))
              (Float64.ofU64 100)) := by
  unfold reported processPower getProcessPowerConsumptionMicrowatts getProcessCpuUsagePercentage
  simp only [start]
  cases (run Driven.step driven events).topology.procTracker.getProcessLastRecord pid with
  | none => rfl
  | some record =>
      cases (run Driven.step driven events).topology.getRecordsDiffPowerMicrowatts now with
      | none => rfl
      | some conso => rfl

/-- What the exporters report of a process after any run.  An exporter with a clone reports
what an exporter with the topology of the sensor reports on the same inputs without events, core
times and perf counters, and the two agree where the kernel offers none of these; `riemann`
reports the part of the host's power that the usage of the process is of all cores. -/
theorem reported_by_exporter {cloned direct : Exporter} (clones : cloned.Clones)
    (isDirect : direct.Direct) {driven : Driven F (ProcessUsage F)}
    (untimed : Untimed driven.topology.procTracker)
    (events : List (DriveEvent F (ProcessUsage F))) (now pid : Nat) :
    cloned.reported driven events now pid =
        direct.reported driven (events.map DriveEvent.bare) now pid ∧
      ((∀ event ∈ events, event.bare = event) →
        cloned.reported driven events now pid = direct.reported driven events now pid) ∧
      riemann.reported driven events now pid =
        .ok (((run Driven.step driven events).topology.procTracker.getProcessLastRecord pid).bind
          fun record =>
            ((run Driven.step driven events).topology.getRecordsDiffPowerMicrowatts now).map
              fun conso => Float64.div (Float64.mul (floatOrZero (some conso))
                (Float64.div record.process.trace.cpuUsagePercentage
                  (Float64.ofU64 (run Driven.step driven events).topology.procTracker.nbCores)))
                (Float64.ofU64 100)) := by
  have same : cloned.reported driven events now pid =
      direct.reported driven (events.map DriveEvent.bare) now pid := by
    rw [reported_of_clones clones, reported_of_direct isDirect,
      (alike_run untimed events).getAllPerProcess]
  refine ⟨same, ?_, reported_of_riemann driven events now pid⟩
  intro unread
  rw [same, List.map_congr_left unread, List.map_id']

end Exporter

/-- A node with two cores, as the sensor built it, with all handles. -/
def builtNode : Driven ExactFloat (ProcessUsage ExactFloat) where
  topology :=
    { sockets := [⟨0, [], [], 1, [], [⟨0, [], 1⟩, ⟨1, [], 1⟩], 0⟩]
      procTracker := .empty 2 5
      recordBuffer := []
      bufferMaxKbytes := 1
      activationIdleBuffer := fun _ => []
      cpuTimeBuffer := [] }
  handles := ⟨true, true, true, fun _ _ => true, fun _ _ => true⟩

/-- Second `n` of a steady load.  The socket uses 30 microwatts, half of it on each core, and
the host 40.  Process 7 has all the time of core 0, which is half the busy time of the node. -/
def steadyLoad (n : Nat) : DriveEvent ExactFloat (ProcessUsage ExactFloat) :=
  .refresh
    { now := n * 10 ^ 9
      events := []
      socketReading := fun _ => ⟨some ⟨n * 10 ^ 9, toText (30 * n), .microJoule⟩, fun _ => none⟩
      coreReading := fun _ _ => ⟨n * 10 ^ 9, 0, n, n, 5 * n, 0, 10 * n, 0, .num 0, .num 0, n⟩
      processes := [(n * 10 ^ 9, ⟨7, "/bin/sh".toList, 5 * n, 10 * n,
        some [UInt64.ofNat (10 * n), 0], 0, 0, 0, 0, 0, 0, ⟨.num 100⟩⟩)]
      cpuTime := fun _ => some (10 * n)
      energy := some ⟨n * 10 ^ 9, toText (40 * n), .microJoule⟩ }

namespace Exporter

/-- The clone attributes without the core times: 7.5 microwatts to process 7. -/
theorem reported_by_exporter_steady_load :
    stdout.reported builtNode ([steadyLoad 1, steadyLoad 2].map DriveEvent.bare) 0 7 =
        .ok (some (.num (15 / 2))) ∧
      prometheus.reported builtNode [steadyLoad 1, steadyLoad 2] 0 7 =
        .ok (some (.num (15 / 2))) := by
  have clones : prometheus.Clones := by decide
  have isDirect : stdout.Direct := by decide
  have untimed : Untimed builtNode.topology.procTracker :=
    fun _ member => absurd member List.not_mem_nil
  have bare : stdout.reported builtNode ([steadyLoad 1, steadyLoad 2].map DriveEvent.bare) 0 7 =
      .ok (some (.num (15 / 2))) := by
    decide +kernel
  refine ⟨bare, ?_⟩
  have same := (reported_by_exporter clones isDirect untimed [steadyLoad 1, steadyLoad 2] 0 7).1
  rw [same, bare]

/-- On the same inputs three exporters report three powers of one process, and two of them
still do when the kernel offers no core times. -/
theorem reported_differs :
    stdout.reported builtNode [steadyLoad 1, steadyLoad 2] 0 7 = .ok (some (.num 15)) ∧
      prometheus.reported builtNode [steadyLoad 1, steadyLoad 2] 0 7 =
        .ok (some (.num (15 / 2))) ∧
      riemann.reported builtNode [steadyLoad 1, steadyLoad 2] 0 7 = .ok (some (.num 20)) ∧
      stdout.reported builtNode ([steadyLoad 1, steadyLoad 2].map DriveEvent.bare) 0 7 ≠
        riemann.reported builtNode ([steadyLoad 1, steadyLoad 2].map DriveEvent.bare) 0 7 ∧
      ¬ ∀ (first second : Exporter) (driven : Driven ExactFloat (ProcessUsage ExactFloat))
        (events : List (DriveEvent ExactFloat (ProcessUsage ExactFloat))) (now pid : Nat),
        first.reported driven events now pid = second.reported driven events now pid := by
  have direct : stdout.reported builtNode [steadyLoad 1, steadyLoad 2] 0 7 =
      .ok (some (.num 15)) := by decide +kernel
  have cloned : prometheus.reported builtNode [steadyLoad 1, steadyLoad 2] 0 7 =
      .ok (some (.num (15 / 2))) := by decide +kernel
  refine ⟨direct, cloned, by decide +kernel, by decide +kernel, ?_⟩
  intro independent
  have same := independent stdout prometheus builtNode [steadyLoad 1, steadyLoad 2] 0 7
  rw [direct, cloned] at same
  exact absurd same (by decide +kernel)

end Exporter

end ScaphandreFormal.Exporters
