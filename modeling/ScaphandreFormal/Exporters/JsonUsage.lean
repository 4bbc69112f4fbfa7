import ScaphandreFormal.Exporters.Json
import ScaphandreFormal.Exporters.Riemann

/-!
# Resource usage in the JSON report

The five values are sought one after the other on one iterator over the metrics of the process,
which stand in the order of a hash map.  A value is found where it and those sought before it
stand in the order of the searches; the others are written as zero.
-/

namespace ScaphandreFormal.Exporters.Json

open Foundation

/-! ## The values and the order of the metrics -/

section

variable (metrics : List Metric) (pid : Nat)

/-- The text is the value of every metric of the process under this name. -/
def Shows (family : Family) (text : Text) : Prop :=
  ∀ metric ∈ metrics, ofProcess pid metric = true → named family metric = true →
    text = metric.metricValue.toText

structure ShowsUsage (usage : ResourcesUsage) : Prop where
  cpuUsage : Shows metrics pid .processCpuUsagePercentage usage.cpuUsage
  memoryUsage : Shows metrics pid .processMemoryBytes usage.memoryUsage
  memoryVirtualUsage : Shows metrics pid .processMemoryVirtualBytes usage.memoryVirtualUsage
  diskUsageWrite : Shows metrics pid .processDiskWriteBytes usage.diskUsageWrite
  diskUsageRead : Shows metrics pid .processDiskReadBytes usage.diskUsageRead

/-- The metrics of the process have these names, in this order. -/
def Ordered (families : List Family) : Prop :=
  (families.map Family.name).Sublist ((metrics.filter (ofProcess pid)).map Metric.name)

instance (families : List Family) : Decidable (Ordered metrics pid families) :=
  inferInstanceAs (Decidable (List.Sublist _ _))

/-- The value under the last name is zero, or the names stand in this order. -/
def ZeroOrOrdered (before : List Family) (family : Family) : Prop :=
  ∀ metric ∈ metrics, ofProcess pid metric = true → named family metric = true →
    metric.metricValue.toText = "0".toList ∨ Ordered metrics pid (before ++ [family])

/-- The values other than zero stand in the order of the searches. -/
structure SearchedInOrder : Prop where
  memoryUsage : ZeroOrOrdered metrics pid [.processCpuUsagePercentage] .processMemoryBytes
  memoryVirtualUsage : ZeroOrOrdered metrics pid
    [.processCpuUsagePercentage, .processMemoryBytes] .processMemoryVirtualBytes
  diskUsageWrite : ZeroOrOrdered metrics pid
    [.processCpuUsagePercentage, .processMemoryBytes, .processMemoryVirtualBytes]
    .processDiskWriteBytes
  diskUsageRead : ZeroOrOrdered metrics pid
    [.processCpuUsagePercentage, .processMemoryBytes, .processMemoryVirtualBytes,
      .processDiskWriteBytes] .processDiskReadBytes

end

/-! ## The searches -/

def searched : List Family :=
  [.processCpuUsagePercentage, .processMemoryBytes, .processMemoryVirtualBytes,
    .processDiskWriteBytes, .processDiskReadBytes]

variable {metrics : List Metric} {pid : Nat}

/-- The values are those that are found by the names sought in turn. -/
theorem resourcesUsage_eq (metrics : List Metric) (pid : Nat) :
    [(resourcesUsage metrics pid).cpuUsage, (resourcesUsage metrics pid).memoryUsage,
      (resourcesUsage metrics pid).memoryVirtualUsage, (resourcesUsage metrics pid).diskUsageWrite,
      (resourcesUsage metrics pid).diskUsageRead] =
    (seekKeys Metric.name (searched.map Family.name)
      (metrics.filter (ofProcess pid))).map usageText := rfl

/-- What one search finds is right where its value is zero or the names are in order. -/
theorem shows_iff (distinct : ((metrics.filter (ofProcess pid)).map Metric.name).Nodup)
    (before : List Family) (family : Family) (after : List Family) {text : Text}
    (found : ((seekKeys Metric.name ((before ++ family :: after).map Family.name)
      (metrics.filter (ofProcess pid))).map usageText)[before.length]? = some text) :
    Shows metrics pid family text ↔ ZeroOrOrdered metrics pid before family := by
  have isText : text = usageText (if Ordered metrics pid (before ++ [family]) then
      (metrics.filter (ofProcess pid)).find? fun metric => metric.name = family.name
      else none) := by
    have sought := seekKeys_getElem? distinct (before.map Family.name) family.name
      (after.map Family.name)
    rw [List.length_map, ← List.map_cons, ← List.map_append] at sought
    rw [List.getElem?_map, sought, Option.map_some, Option.some.injEq] at found
    rw [← found]
    simp only [Ordered, List.map_append, List.map_cons, List.map_nil]
  constructor
  · intro shows metric member own isNamed
    by_cases ordered : Ordered metrics pid (before ++ [family])
    · exact Or.inr ordered
    · rw [if_neg ordered] at isText
      exact Or.inl ((shows metric member own isNamed).symm.trans isText)
  · intro zeroOrOrdered metric member own isNamed
    by_cases ordered : Ordered metrics pid (before ++ [family])
    · have first : ((metrics.filter (ofProcess pid)).find? fun other =>
          other.name = family.name) = some metric := by
        rw [← of_decide_eq_true isNamed]
        exact find?_of_mem distinct (List.mem_filter.mpr ⟨member, own⟩)
      rw [isText, if_pos ordered, first]
      rfl
    · rcases zeroOrOrdered metric member own isNamed with zero | whole
      · rw [isText, if_neg ordered, zero]
        rfl
      · exact absurd whole ordered

/-- The search for the first name does not miss it. -/
theorem zeroOrOrdered_first (family : Family) : ZeroOrOrdered metrics pid [] family := by
  intro metric member own isNamed
  refine Or.inr (List.singleton_sublist.mpr ?_)
  rw [← of_decide_eq_true isNamed]
  exact List.mem_map_of_mem (List.mem_filter.mpr ⟨member, own⟩)

theorem showsUsage_iff (distinct : ((metrics.filter (ofProcess pid)).map Metric.name).Nodup) :
    ShowsUsage metrics pid (resourcesUsage metrics pid) ↔ SearchedInOrder metrics pid := by
  have values := (resourcesUsage_eq metrics pid).symm
  have cpu : Shows metrics pid _ (resourcesUsage metrics pid).cpuUsage ↔ _ :=
    shows_iff distinct [] .processCpuUsagePercentage (searched.drop 1)
      (congrArg (fun texts => texts[0]?) values)
  have mem : Shows metrics pid _ (resourcesUsage metrics pid).memoryUsage ↔ _ :=
    shows_iff distinct (searched.take 1) .processMemoryBytes (searched.drop 2)
      (congrArg (fun texts => texts[1]?) values)
  have memVirtual : Shows metrics pid _ (resourcesUsage metrics pid).memoryVirtualUsage ↔ _ :=
    shows_iff distinct (searched.take 2) .processMemoryVirtualBytes (searched.drop 3)
      (congrArg (fun texts => texts[2]?) values)
  have diskWrite : Shows metrics pid _ (resourcesUsage metrics pid).diskUsageWrite ↔ _ :=
    shows_iff distinct (searched.take 3) .processDiskWriteBytes (searched.drop 4)
      (congrArg (fun texts => texts[3]?) values)
  have diskRead : Shows metrics pid _ (resourcesUsage metrics pid).diskUsageRead ↔ _ :=
    shows_iff distinct (searched.take 4) .processDiskReadBytes []
      (congrArg (fun texts => texts[4]?) values)
  constructor
  · rintro ⟨_, second, third, fourth, fifth⟩
    exact ⟨mem.mp second, memVirtual.mp third, diskWrite.mp fourth, diskRead.mp fifth⟩
  · rintro ⟨second, third, fourth, fifth⟩
    exact ⟨cpu.mpr (zeroOrOrdered_first _), mem.mpr second, memVirtual.mpr third,
      diskWrite.mpr fourth, diskRead.mpr fifth⟩

/-! ## The metrics of a process -/

/-- The metrics of a process in one order of their map. -/
def processMetrics (readings : Readings) (process : ProcessReadings) : List Metric :=
  process.getAllPerProcess.map fun entry =>
    entry.1.metric (readings.processAttributes process) (.text entry.2)

def usageFamilies : List Family :=
  [.processCpuUsagePercentage, .processMemoryVirtualBytes, .processMemoryBytes,
    .processDiskWriteBytes, .processDiskReadBytes, .processDiskTotalWriteBytes,
    .processDiskTotalReadBytes]

def powerFamilies : List Family :=
  [.processPowerConsumptionMicrowatts, .processCoreTimeNs, .processCoreTotalTimeNs,
    .processCoreProportion]

theorem families_sublist (process : ProcessReadings) :
    (process.getAllPerProcess.map Prod.fst).Sublist (usageFamilies ++ powerFamilies) := by
  rw [ProcessReadings.getAllPerProcess, List.map_append]
  refine List.Sublist.append ?_ ?_
  · cases process.usage with
    | none => exact List.nil_sublist _
    | some usage => exact List.Sublist.refl _
  · cases process.power with
    | none => exact List.nil_sublist _
    | some power =>
        rw [Option.map_some, Option.getD_some, ProcessReadings.powerMetrics]
        cases process.coreTimes with
        | none => exact List.Sublist.cons_cons _ (List.nil_sublist _)
        | some times => exact List.Sublist.refl _

theorem nodup_names (process : ProcessReadings) :
    (process.getAllPerProcess.map fun entry => entry.1.name).Nodup := by
  have all : ((usageFamilies ++ powerFamilies).map Family.name).Nodup := by decide +kernel
  have names := all.sublist ((families_sublist process).map Family.name)
  rwa [List.map_map] at names

theorem nodup_names_processMetrics (readings : Readings) (process : ProcessReadings) :
    ((processMetrics readings process).map Metric.name).Nodup := by
  rw [processMetrics, List.map_map]
  exact nodup_names process

/-- A consumer of a report is that of its pid. -/
theorem consumer_of_mem {F : Type} {reader : FloatReader F} {exporter : JsonExporter F}
    {report : Report F} (written : retrieveMetrics reader exporter metrics = .ok (some report))
    {consumer : Consumer F} (member : consumer ∈ report.consumers) :
    consumer.resourcesUsage =
        (if exporter.monitorResources then some (resourcesUsage metrics consumer.pid) else none) ∧
      consumer.coreTimes = coreTimes reader metrics consumer.pid := by
  obtain ⟨_, consumers, _, _, _, selected, isConsumers, _⟩ := retrieveMetrics_cases written
  rw [isConsumers, List.reduceOption_mem_iff] at member
  obtain ⟨pid, _, described⟩ := (exists_mem_of_forall₂ (forall₂_of_mapM_eq_ok selected)).2 _ member
  unfold Json.consumer at described
  split at described
  · obtain ⟨exe, _, afterExe⟩ := bind_eq_ok described
    obtain ⟨cmdline, _, afterCmdline⟩ := bind_eq_ok afterExe
    obtain ⟨consumption, _, assembled⟩ := bind_eq_ok afterCmdline
    cases assembled
    exact ⟨rfl, rfl⟩
  · cases described

/-- The usage in the report is that of the metrics just where the values other than zero stand
in the order of the searches. -/
theorem usage_shown_iff_searched_in_order {F : Type} (reader : FloatReader F)
    (exporter : JsonExporter F) (readings : Readings) (process : ProcessReadings)
    (metrics : List Metric) (report : Report F)
    (enumerated : (metrics.filter (ofProcess process.pid)).Perm (processMetrics readings process))
    (written : retrieveMetrics reader exporter metrics = .ok (some report))
    (monitored : exporter.monitorResources = true) (consumer : Consumer F)
    (member : consumer ∈ report.consumers) (same : consumer.pid = process.pid) :
    ∃ usage, consumer.resourcesUsage = some usage ∧
      (ShowsUsage metrics process.pid usage ↔ SearchedInOrder metrics process.pid) := by
  have distinct : ((metrics.filter (ofProcess process.pid)).map Metric.name).Nodup :=
    (enumerated.map Metric.name).nodup_iff.mpr (nodup_names_processMetrics readings process)
  have usage := (consumer_of_mem written member).1
  rw [if_pos monitored] at usage
  refine ⟨_, usage, ?_⟩
  rw [same]
  exact showsUsage_iff distinct

/-! ## Two orders of one map -/

def exactReader : FloatReader ExactFloat :=
  ⟨Foundation.parseF64, Foundation.parseF64, .num 0, ExactFloat.isPositive⟩

def watchingUsage : JsonExporter ExactFloat where
  consumers := [7]
  watchContainers := false
  monitorResources := true
  sockets := []
  corePowers := none
  coreCoefs := []
  coreProportions := []

def busyProcess : ProcessReadings where
  pid := 7
  exe := "sh".toList
  cmdline := some "sh".toList
  cgroups := []
  usage := some ⟨.decimal false 12 [], 300, 200, 20, 10, 0, 0⟩
  power := some (.decimal false 50 [])
  coreTimes := none

/-- The metrics of the process, and the power of the host behind them. -/
def withHostPower (own : List Metric) : List Metric :=
  own ++ [(⟨.hostPowerMicrowatts, [], .number 100⟩ : OwnMetric).metric]

def busyMetrics : List Metric := processMetrics (TextExporter.oneProcess "sh".toList) busyProcess

/-- The order in which memory and virtual memory are exchanged. -/
def orderedMetrics : List Metric :=
  [0, 2, 1, 3, 4, 5, 6, 7].filterMap fun index => busyMetrics[index]?

def usageReport (usage : ResourcesUsage) : Report ExactFloat where
  host := { consumption := .num 100, disks := some [], activation := none, background := none }
  idle := none
  activation := none
  background := none
  consumers :=
    [{ exe := "sh".toList, cmdline := "sh".toList, pid := 7, resourcesUsage := some usage
       consumption := .num 50, container := none, coreTimes := none }]
  sockets := []
  cores := []

theorem usage_shown_in_search_order :
    ∃ (report : Report ExactFloat) (consumer : Consumer ExactFloat) (usage : ResourcesUsage),
      retrieveMetrics exactReader watchingUsage (withHostPower orderedMetrics) =
          .ok (some report) ∧
        consumer ∈ report.consumers ∧ consumer.resourcesUsage = some usage ∧
        ShowsUsage (withHostPower orderedMetrics) 7 usage := by
  have written : retrieveMetrics exactReader watchingUsage (withHostPower orderedMetrics) =
      .ok (some (usageReport
        { cpuUsage := "12".toList, memoryUsage := "200".toList
          memoryVirtualUsage := "300".toList, diskUsageWrite := "20".toList
          diskUsageRead := "10".toList })) := by decide +kernel
  have inOrder : SearchedInOrder (withHostPower orderedMetrics) 7 := by
    have ordered : Ordered (withHostPower orderedMetrics) 7 searched := by decide +kernel
    have cut : ∀ taken, Ordered (withHostPower orderedMetrics) 7 (searched.take taken) :=
      fun taken => ((List.take_sublist taken searched).map Family.name).trans ordered
    exact ⟨fun _ _ _ _ => Or.inr (cut 2), fun _ _ _ _ => Or.inr (cut 3),
      fun _ _ _ _ => Or.inr (cut 4), fun _ _ _ _ => Or.inr ordered⟩
  obtain ⟨usage, isUsage, shown⟩ := usage_shown_iff_searched_in_order exactReader watchingUsage
    (TextExporter.oneProcess "sh".toList) busyProcess (withHostPower orderedMetrics) _
    (by decide +kernel) written rfl _ List.mem_cons_self rfl
  exact ⟨_, _, usage, written, List.mem_cons_self, isUsage, shown.mpr inOrder⟩

/-- The map in reverse: the processor time comes last, and all else is written as zero. -/
theorem not_usage_shown_in_reverse :
    ¬ ∀ (reader : FloatReader ExactFloat) (exporter : JsonExporter ExactFloat)
        (readings : Readings) (process : ProcessReadings) (metrics : List Metric)
        (report : Report ExactFloat),
      (metrics.filter (ofProcess process.pid)).Perm (processMetrics readings process) →
      retrieveMetrics reader exporter metrics = .ok (some report) →
      exporter.monitorResources = true → ∀ consumer ∈ report.consumers,
        consumer.pid = process.pid → ∃ usage, consumer.resourcesUsage = some usage ∧
          ShowsUsage metrics process.pid usage := by
  intro all
  have written : retrieveMetrics exactReader watchingUsage (withHostPower busyMetrics.reverse) =
      .ok (some (usageReport
        { cpuUsage := "12".toList, memoryUsage := "0".toList
          memoryVirtualUsage := "0".toList, diskUsageWrite := "0".toList
          diskUsageRead := "0".toList })) := by decide +kernel
  obtain ⟨usage, isUsage, shown⟩ := all exactReader watchingUsage
    (TextExporter.oneProcess "sh".toList) busyProcess (withHostPower busyMetrics.reverse) _
    (by decide +kernel) written rfl _ List.mem_cons_self rfl
  have memory : Family.processMemoryBytes.metric
      ((TextExporter.oneProcess "sh".toList).processAttributes busyProcess)
      (.text "200".toList) ∈ withHostPower busyMetrics.reverse := by decide +kernel
  have zero : "0".toList = "200".toList := by
    have value := shown.memoryUsage _ memory (by decide +kernel) (by decide +kernel)
    rw [← Option.some.inj isUsage] at value
    exact value
  exact absurd zero (by decide)

end ScaphandreFormal.Exporters.Json
