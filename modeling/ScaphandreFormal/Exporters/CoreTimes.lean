import ScaphandreFormal.Exporters.JsonReport
import ScaphandreFormal.Foundation.Rounding
import ScaphandreFormal.Foundation.Tokens
import ScaphandreFormal.Sensors.CoreAlignment

/-!
# Core times in the JSON report

The sensors write the times of a process as three texts, with a comma between the cores.  The
report splits the texts at the commas, reads what it can and leaves out the rest, so that one
text that could not be read would move all later cores.  All of them are read: the integers
fit into 64 bits, and the proportions are finite, since they are cut at one.

Of floating-point numbers it is used that a finite one is read back from its text, and that
no number is read from the empty text, which is what a machine without cores would write.
-/

namespace ScaphandreFormal.Exporters

open Foundation
open Sensors (ProcessValue ProcessMetric ProcessRecord CoreTimeData)

variable {F Trace : Type}

/-! ## From the sensors to the metrics -/

/-- The text of the record: `to_string`, with `join` for a vector. -/
def valueText (display : F → PrintedFloat) : ProcessValue F → Text
  | .number x => (display x).text
  | .count n => toText n
  | .numbers xs => [','].intercalate (xs.map fun x => (display x).text)
  | .counts ns => [','].intercalate (ns.map toText)

def metricText (display : F → PrintedFloat) (metric : ProcessMetric F) : Text × Text :=
  (metric.name, valueText display metric.record.value)

/-- The metrics of the process are those that the sensors have for its pid. -/
def Drawn [Float64 F] (display : F → PrintedFloat) (now : Nat)
    (topology : Sensors.Topology F Trace) (process : ProcessReadings) : Prop :=
  ∃ metrics, topology.getAllPerProcess now process.pid = .ok metrics ∧
    (process.getAllPerProcess.map fun entry => (entry.1.name, entry.2)) =
      metrics.map (metricText display)

/-- The core times as the generator holds them. -/
def coreTimesOf (display : F → PrintedFloat) (data : CoreTimeData F) : List CoreTime :=
  ((data.processNs.zip data.totalNs).zip data.proportions).map fun entry =>
    ⟨entry.1.1, entry.1.2, display entry.2⟩

variable [Float64 F] {display : F → PrintedFloat} {now : Nat} {topology : Sensors.Topology F Trace}

omit [Float64 F] in
/-- The texts of the core times are those that the sensors write. -/
theorem coreTimeMetrics_coreTimesOf (display : F → PrintedFloat) (record : ProcessRecord Trace)
    {data : CoreTimeData F} (total : data.processNs.length = data.totalNs.length)
    (proportion : data.totalNs.length = data.proportions.length) :
    ((ProcessReadings.coreTimeMetrics (coreTimesOf display data)).map
        fun entry => (entry.1.name, entry.2)) =
      (Sensors.Topology.coreTimeMetrics record data).map (metricText display) := by
  have pairs : (data.processNs.zip data.totalNs).length = data.proportions.length := by
    rw [List.length_zip, total, Nat.min_self, proportion]
  have firsts : ((data.processNs.zip data.totalNs).zip data.proportions).map Prod.fst =
      data.processNs.zip data.totalNs := List.map_fst_zip pairs.le
  have processes : (coreTimesOf display data).map (fun time => toText time.process) =
      data.processNs.map toText := by
    rw [← List.map_fst_zip total.le, ← firsts, coreTimesOf, List.map_map, List.map_map,
      List.map_map]
    rfl
  have totals : (coreTimesOf display data).map (fun time => toText time.total) =
      data.totalNs.map toText := by
    rw [← List.map_snd_zip total.ge, ← firsts, coreTimesOf, List.map_map, List.map_map,
      List.map_map]
    rfl
  have proportions : (coreTimesOf display data).map (fun time => time.proportion.text) =
      data.proportions.map fun x => (display x).text := by
    rw [← List.map_snd_zip pairs.ge, coreTimesOf, List.map_map, List.map_map]
    rfl
  rw [ProcessReadings.coreTimeMetrics, processes, totals, proportions]
  rfl

/-- The usage as the generator holds it. -/
def usageOf (display : F → PrintedFloat) (record : ProcessRecord Trace) (percentage : F) :
    UsageReadings where
  cpuUsagePercentage := display percentage
  memoryVirtual := record.process.virtualMemory
  memory := record.process.memory
  diskWritten := record.process.diskWritten
  diskRead := record.process.diskRead
  totalDiskWritten := record.process.totalDiskWritten
  totalDiskRead := record.process.totalDiskRead

omit [Float64 F] in
theorem usageMetrics_usageOf (record : ProcessRecord Trace) (percentage : Option F) :
    (((percentage.map (usageOf display record)).map ProcessReadings.usageMetrics).getD []).map
        (fun entry => (entry.1.name, entry.2)) =
      ((percentage.map (Sensors.Topology.usageMetrics record)).getD []).map
        (metricText display) := by
  cases percentage <;> rfl

/-- Every process that the sensors know can be drawn from them. -/
theorem exists_drawn (display : F → PrintedFloat) (process : ProcessReadings)
    {metrics : List (ProcessMetric F)}
    (read : topology.getAllPerProcess now process.pid = .ok metrics) :
    ∃ usage power coreTimes, Drawn display now topology
      { process with usage := usage, power := power, coreTimes := coreTimes } := by
  rcases Sensors.Topology.getAllPerProcess_cases read with
    ⟨_, rfl⟩ | ⟨record, data, percentages, usage, _, readData, _, rfl, shape⟩
  · exact ⟨none, none, none, _, read, rfl⟩
  · generalize topology.procTracker.getProcessCpuTimeDeltaAsPercentage F process.pid =
      percentage at shape
    rcases shape with ⟨_, rfl⟩ | ⟨result, rfl⟩
    · refine ⟨percentage.map (usageOf display record), none, none, _, read, ?_⟩
      rw [ProcessReadings.getAllPerProcess, List.map_append, usageMetrics_usageOf]
      exact List.append_nil _
    · refine ⟨percentage.map (usageOf display record), some (display result),
        data.map (coreTimesOf display), _, read, ?_⟩
      rw [ProcessReadings.getAllPerProcess, List.map_append, usageMetrics_usageOf, List.map_append]
      congr 1
      cases data with
      | none => rfl
      | some data =>
          obtain ⟨deltas, diff, _, _, columns⟩ := Sensors.Topology.timeColumns_of_ok readData
          have texts := coreTimeMetrics_coreTimesOf display record
            (columns.processNs.length.trans columns.totalNs.length.symm)
            (columns.totalNs.length.trans columns.proportions.length.symm)
          exact congrArg (List.cons _) texts

/-! ## The metrics of a pid -/

theorem lookup_pid (readings : Readings) (process : ProcessReadings) :
    (readings.processAttributes process).lookup "pid".toList = some (toText process.pid) :=
  lookup_insertAll.mpr
    (lasts_append_of_nodup (readings.nodup_processInsertions process) List.mem_cons_self)

/-- The keys of the labels that the program makes. -/
def ownKeys : List Text :=
  ["socket_id".toList, "core_id".toList, "domain_id".toList, "domain_name".toList,
    "rapl_domain_name".toList, "value_source".toList]

theorem OwnLabel.key_mem (label : OwnLabel) : label.entry.1 ∈ ownKeys := by
  cases label with
  | socketId _ => exact List.mem_cons_self
  | coreId _ => exact .tail _ List.mem_cons_self
  | domainId _ => exact .tail _ (.tail _ List.mem_cons_self)
  | domainName _ => exact .tail _ (.tail _ (.tail _ List.mem_cons_self))
  | raplDomainName _ => exact .tail _ (.tail _ (.tail _ (.tail _ List.mem_cons_self)))
  | valueSource _ => exact .tail _ (.tail _ (.tail _ (.tail _ (.tail _ List.mem_cons_self))))

namespace Json

variable {readings : Readings} {metrics : List Metric} {pid : Nat}

theorem hasPid_own (own : OwnMetric) (pid : Nat) : hasPid pid own.metric = false := by
  refine decide_eq_false ?_
  intro found
  have lasting := lookup_insertAll.mp found
  obtain ⟨label, _, isEntry⟩ := List.mem_map.mp (mem_of_lasts lasting)
  have apart : "pid".toList ∉ ownKeys := by decide +kernel
  have key : label.entry.1 = "pid".toList := congrArg Prod.fst isEntry
  exact apart (key ▸ label.key_mem)

theorem hasPid_processMetrics {process : ProcessReadings} {metric : Metric}
    (member : metric ∈ processMetrics readings process) :
    hasPid pid metric = true ↔ process.pid = pid := by
  obtain ⟨entry, _, rfl⟩ := List.mem_map.mp member
  have attributes : getAttribute (entry.1.metric (readings.processAttributes process)
      (.text entry.2)) "pid".toList = some (toText process.pid) := lookup_pid readings process
  rw [hasPid, attributes, decide_eq_true_eq, Option.some.injEq]
  exact ⟨fun same => toText_injective same, fun same => congrArg toText same⟩

/-- A metric with a pid that is not one of a disk is one of a process. -/
theorem Popped.process_of_hasPid (popped : Popped readings metrics) {metric : Metric}
    (member : metric ∈ metrics) (isPid : hasPid pid metric = true)
    (elsewhere : partOf metric.name = .others) :
    ∃ process ∈ readings.processes, process.pid = pid ∧
      metric ∈ processMetrics readings process := by
  obtain ⟨disks, processes, isDisks, isProcesses, rfl⟩ := popped
  have notOwn : ∀ {owns : List OwnMetric}, metric ∉ owns.map OwnMetric.metric := by
    intro owns inside
    obtain ⟨own, _, rfl⟩ := List.mem_map.mp inside
    rw [hasPid_own] at isPid
    cases isPid
  have notDisk : metric ∉ disks := by
    intro inside
    have isDisk := part_diskMetrics _ metric (isDisks.mem_iff.mp inside)
    rw [elsewhere] at isDisk
    cases isDisk
  simp only [List.mem_reverse, List.mem_append, notOwn, notDisk, false_or] at member
  obtain ⟨block, isBlock, inside⟩ := List.mem_flatten.mp member
  obtain ⟨process, isProcess, same⟩ := (exists_mem_of_forall₂ isProcesses).2 block isBlock
  have own := same.mem_iff.mp inside
  exact ⟨process, isProcess, (hasPid_processMetrics own).mp isPid, own⟩

theorem Popped.mem_of_process (popped : Popped readings metrics) {process : ProcessReadings}
    (listed : process ∈ readings.processes) {metric : Metric}
    (own : metric ∈ processMetrics readings process) : metric ∈ metrics := by
  obtain ⟨disks, processes, _, isProcesses, rfl⟩ := popped
  obtain ⟨block, isBlock, same⟩ := (exists_mem_of_forall₂ isProcesses).1 process listed
  rw [List.mem_reverse]
  exact List.mem_append_right _ (List.mem_flatten.mpr ⟨block, isBlock, same.mem_iff.mpr own⟩)

/-- The text that all processes with the pid have under the name is the one that is found. -/
theorem Popped.find_text (popped : Popped readings metrics) {family : Family} {text : Text}
    (elsewhere : family.part = .others) {process : ProcessReadings}
    (listed : process ∈ readings.processes) (isPid : process.pid = pid)
    (written : ∃ entry ∈ process.getAllPerProcess, entry.1.name = family.name)
    (only : ∀ process ∈ readings.processes, process.pid = pid →
      ∀ entry ∈ process.getAllPerProcess, entry.1.name = family.name → entry.2 = text) :
    ∃ metric, metrics.find? (fun x => named family x && hasPid pid x) = some metric ∧
      metric.metricValue.toText = text := by
  obtain ⟨entry, isEntry, sameName⟩ := written
  have own : entry.1.metric (readings.processAttributes process) (.text entry.2) ∈
      processMetrics readings process := List.mem_map.mpr ⟨_, isEntry, rfl⟩
  have found : (metrics.find? fun x => named family x && hasPid pid x).isSome = true := by
    rw [List.find?_isSome]
    refine ⟨_, popped.mem_of_process listed own, ?_⟩
    rw [(hasPid_processMetrics own).mpr isPid, Bool.and_true]
    exact decide_eq_true sameName
  obtain ⟨metric, isFound⟩ := Option.isSome_iff_exists.mp found
  refine ⟨metric, isFound, ?_⟩
  have both := List.find?_some isFound
  rw [Bool.and_eq_true] at both
  have isNamed : metric.name = family.name := of_decide_eq_true both.1
  have part : partOf metric.name = .others := by rw [isNamed, partOf_name, elsewhere]
  obtain ⟨other, isOther, samePid, ofOther⟩ :=
    popped.process_of_hasPid (List.mem_of_find?_eq_some isFound) both.2 part
  obtain ⟨entry, isEntry, rfl⟩ := List.mem_map.mp ofOther
  exact only other isOther samePid entry isEntry isNamed

end Json

/-! ## The texts of the core times -/

/-- The three texts, by family. -/
def timeTexts (display : F → PrintedFloat) (data : CoreTimeData F) : List (Family × Text) :=
  [(.processCoreTimeNs, [','].intercalate (data.processNs.map toText)),
    (.processCoreTotalTimeNs, [','].intercalate (data.totalNs.map toText)),
    (.processCoreProportion, [','].intercalate (data.proportions.map fun x => (display x).text))]

omit [Float64 F] in
theorem part_timeTexts (data : CoreTimeData F) :
    ∀ expected ∈ timeTexts display data, expected.1.part = .others := by
  simp only [timeTexts, List.forall_mem_cons]
  exact ⟨rfl, rfl, rfl, List.forall_mem_nil _⟩

/-- A process that was drawn has each of the three texts, and no other under its name. -/
theorem Drawn.timeTexts {process : ProcessReadings} {data : CoreTimeData F}
    (drawn : Drawn display now topology process)
    (timed : topology.getProcessCoreTimeData process.pid = .ok (some data)) :
    ∀ expected ∈ timeTexts display data,
      (∃ entry ∈ process.getAllPerProcess, entry.1.name = expected.1.name) ∧
        ∀ entry ∈ process.getAllPerProcess, entry.1.name = expected.1.name →
          entry.2 = expected.2 := by
  obtain ⟨metrics, read, texts⟩ := drawn
  obtain ⟨record, before, rfl⟩ := Sensors.Topology.getAllPerProcess_of_timed timed read
  have distinct : ((process.getAllPerProcess.map fun entry => (entry.1.name, entry.2)).map
      Prod.fst).Nodup := by
    rw [List.map_map]
    exact Json.nodup_names process
  intro expected isExpected
  have written : (expected.1.name, expected.2) ∈
      process.getAllPerProcess.map fun entry => (entry.1.name, entry.2) := by
    rw [texts, List.map_append]
    exact List.mem_append_right _
      (List.mem_map_of_mem (f := fun entry : Family × Text => (entry.1.name, entry.2)) isExpected)
  constructor
  · obtain ⟨entry, isEntry, same⟩ := List.mem_map.mp written
    exact ⟨entry, isEntry, congrArg Prod.fst same⟩
  · intro entry isEntry sameName
    have here : (entry.1.name, entry.2) ∈
        process.getAllPerProcess.map fun entry => (entry.1.name, entry.2) :=
      List.mem_map.mpr ⟨entry, isEntry, rfl⟩
    exact (Prod.mk.inj (List.inj_on_of_nodup_map distinct here written sameName)).2

theorem comma_not_mem_toText (n : Nat) : ',' ∉ toText n := by
  intro member
  exact absurd (isDigit_of_mem_toText member) (by decide)

theorem PrintedFloat.comma_not_mem_text (x : PrintedFloat) : ',' ∉ x.text := by
  intro member
  exact absurd (Exposition.isNumberChar_of_isNumber x.isNumber_text ',' member) (by decide)

/-- Integers of 64 bits are read back. -/
theorem filterMap_parseU64 {values : List Nat} (fit : ∀ value ∈ values, value ≤ u64Max) :
    (([','].intercalate (values.map toText)).splitOn ',').filterMap parseU64 = values :=
  filterMap_splitOn_intercalate (fun value _ => comma_not_mem_toText value)
    (fun value member => parseU64_toText (fit value member)) rfl

section Formats

variable {format : FloatFormat} {display : format.Number → PrintedFloat}
  {reader : Json.FloatReader format.Number} {topology : Sensors.Topology format.Number Trace}

/-- What is used of `f64`: a finite number is read back from its text, and none is read from
the empty text. -/
structure ReadsBack (display : format.Number → PrintedFloat)
    (reader : Json.FloatReader format.Number) : Prop where
  finite : ∀ x, x.IsFinite → reader.parseF64 (display x).text = some x
  empty : reader.parseF64 [] = none

theorem filterMap_parseF64 (readsBack : ReadsBack display reader) {values : List format.Number}
    (finite : ∀ value ∈ values, value.IsFinite) :
    (([','].intercalate (values.map fun x => (display x).text)).splitOn ',').filterMap
      reader.parseF64 = values :=
  filterMap_splitOn_intercalate (fun value _ => (display value).comma_not_mem_text)
    (fun value member => readsBack.finite value (finite value member)) readsBack.empty

omit [Float64 F] in
theorem totalNsOf_le (diff : Sensors.MultiValuedRecord Text) (core : Sensors.CPUCore F) :
    Sensors.Topology.totalNsOf diff core ≤ u64Max := by
  unfold Sensors.Topology.totalNsOf
  cases parsed : (diff.values[core.id]?).bind parseU64 with
  | none => exact Nat.zero_le _
  | some value =>
      obtain ⟨text, _, isValue⟩ := Option.bind_eq_some_iff.mp parsed
      exact parseU64_le isValue

/-- A share by the core times is finite. -/
theorem isFinite_timedShare {deltas : List UInt64} {diff : Sensors.MultiValuedRecord Text}
    {core : Sensors.CPUCore format.Number} {x : format.Number}
    (isShare : Sensors.Topology.timedShare deltas diff core = some x) : x.IsFinite := by
  unfold Sensors.Topology.timedShare at isShare
  split at isShare
  · rename_i busy
    obtain ⟨delta, _, rfl⟩ := Option.map_eq_some_iff.mp isShare
    exact FloatFormat.Number.isFinite_min_div (Nat.le_pred_of_lt delta.toNat_lt) (totalNsOf_le _ _)
      busy
  · cases isShare
    exact FloatFormat.Number.isFinite_ofU64 (Nat.zero_le _)

/-! ## What the report reads -/

/-- The arrays are the vectors of the sensors.  Each has an entry for every core of `get_cores`,
the one at an index being that of the core there. -/
structure Carries (topology : Sensors.Topology format.Number Trace) (pid : Nat)
    (data : CoreTimeData format.Number) (times : Json.CoreTimes format.Number) : Prop where
  vectors : times = ⟨data.processNs, data.totalNs, data.proportions⟩
  lengths : times.processNs.length = topology.getCores.length ∧
    times.totalNs.length = topology.getCores.length ∧
    times.proportion.length = topology.getCores.length
  cores : ∃ deltas diff, topology.procTracker.getPerCoreCpuTimeDelta pid = some deltas ∧
    topology.getCpuTimeDiff = some diff ∧
    ∀ (index : Nat) (core : Sensors.CPUCore format.Number),
      topology.getCores[index]? = some core →
        times.processNs[index]? = (deltas[core.id]?).map UInt64.toNat ∧
        times.totalNs[index]? = some (Sensors.Topology.totalNsOf diff core) ∧
        times.proportion[index]? = Sensors.Topology.timedShare deltas diff core

theorem carries_of_timed {pid : Nat} {data : CoreTimeData format.Number}
    (timed : topology.getProcessCoreTimeData pid = .ok (some data)) :
    Carries topology pid data ⟨data.processNs, data.totalNs, data.proportions⟩ := by
  obtain ⟨deltas, diff, hasDeltas, differs, columns⟩ := Sensors.Topology.timeColumns_of_ok timed
  refine ⟨rfl, ⟨columns.processNs.length, columns.totalNs.length, columns.proportions.length⟩,
    deltas, diff, hasDeltas, differs, ?_⟩
  intro index core atIndex
  exact ⟨columns.processNs.entries index core atIndex, columns.totalNs.entries index core atIndex,
    columns.proportions.entries index core atIndex⟩

/-- The vectors of the time data can be read back from their texts. -/
theorem readable_of_timed {pid : Nat} {data : CoreTimeData format.Number}
    (timed : topology.getProcessCoreTimeData pid = .ok (some data)) :
    (∀ value ∈ data.processNs, value ≤ u64Max) ∧ (∀ value ∈ data.totalNs, value ≤ u64Max) ∧
      ∀ value ∈ data.proportions, value.IsFinite := by
  obtain ⟨deltas, diff, _, _, columns⟩ := Sensors.Topology.timeColumns_of_ok timed
  refine ⟨?_, ?_, ?_⟩
  · intro value member
    obtain ⟨core, _, isValue⟩ := columns.processNs.exists_of_mem member
    obtain ⟨delta, _, rfl⟩ := Option.map_eq_some_iff.mp isValue
    exact Nat.le_pred_of_lt delta.toNat_lt
  · intro value member
    obtain ⟨core, _, isValue⟩ := columns.totalNs.exists_of_mem member
    cases isValue
    exact totalNsOf_le diff core
  · intro value member
    obtain ⟨core, _, isShare⟩ := columns.proportions.exists_of_mem member
    exact isFinite_timedShare isShare

/-- The core times of a process in the report are those that the sensors computed. -/
theorem coreTimes_read_back (readsBack : ReadsBack display reader) {readings : Readings}
    {metrics : List Metric} (popped : Json.Popped readings metrics)
    (drawn : ∀ process ∈ readings.processes, Drawn display now topology process)
    {pid : Nat} (listed : ∃ process ∈ readings.processes, process.pid = pid)
    {data : CoreTimeData format.Number}
    (timed : topology.getProcessCoreTimeData pid = .ok (some data)) :
    ∃ times, Json.coreTimes reader metrics pid = some times ∧ Carries topology pid data times ∧
      ∀ exporter report, Json.retrieveMetrics reader exporter metrics = .ok (some report) →
        ∀ consumer ∈ report.consumers, consumer.pid = pid → consumer.coreTimes = some times := by
  obtain ⟨process, isListed, isPid⟩ := listed
  have texts : ∀ expected ∈ timeTexts display data, ∃ metric,
      metrics.find? (fun x => Json.named expected.1 x && Json.hasPid pid x) = some metric ∧
        metric.metricValue.toText = expected.2 := by
    intro expected isExpected
    refine popped.find_text (part_timeTexts data expected isExpected) isListed isPid ?_ ?_
    · exact ((drawn process isListed).timeTexts (isPid ▸ timed) expected isExpected).1
    · intro other isOther samePid
      exact ((drawn other isOther).timeTexts (samePid ▸ timed) expected isExpected).2
  obtain ⟨pn, foundProcess, processText⟩ := texts _ List.mem_cons_self
  obtain ⟨tn, foundTotal, totalText⟩ := texts _ (.tail _ List.mem_cons_self)
  obtain ⟨pr, foundProportion, proportionText⟩ := texts _ (.tail _ (.tail _ List.mem_cons_self))
  obtain ⟨processFit, totalFit, finite⟩ := readable_of_timed timed
  have read : Json.coreTimes reader metrics pid =
      some ⟨data.processNs, data.totalNs, data.proportions⟩ := by
    unfold Json.coreTimes
    simp only [foundProcess, foundTotal, foundProportion, processText, totalText, proportionText,
      filterMap_parseU64 processFit, filterMap_parseU64 totalFit,
      filterMap_parseF64 readsBack finite]
  refine ⟨_, read, carries_of_timed timed, ?_⟩
  intro exporter report written consumer member samePid
  rw [(Json.consumer_of_mem written member).2, samePid, read]

end Formats

/-! ## A format in which texts are read back -/

theorem PrintedFloat.parseF64_text (x : PrintedFloat) : parseF64 x.text = some x.amount := by
  cases x with
  | nan => decide +kernel
  | infinite negative => cases negative <;> decide +kernel
  | decimal negative whole fraction =>
      cases fraction with
      | nil =>
          have same : (PrintedFloat.decimal negative whole []).amount =
              .num (if negative then -(whole : ℚ) else whole) := by
            simp [PrintedFloat.amount, fractionValue]
          rw [same]
          exact parseF64_toText negative whole
      | cons digit others => exact parseF64_decimal negative whole (digit :: others)

/-- A number is the one that the text denotes, rounded. -/
def roundingReader (format : FloatFormat) : Json.FloatReader format.Number where
  parseF32 text := (parseF64 text).map .ofExact
  parseF64 text := (parseF64 text).map .ofExact
  zero := Float64.ofU64 0
  isPositive := Float64.isPositive

/-- Numbers are read back when what is printed of a finite one is rounded to it. -/
theorem readsBack_of_rounds {format : FloatFormat} {display : format.Number → PrintedFloat}
    (rounds : ∀ x : format.Number, x.IsFinite → .ofExact (display x).amount = x) :
    ReadsBack display (roundingReader format) where
  finite x isFinite := by
    change ((parseF64 (display x).text).map .ofExact : Option format.Number) = some x
    rw [PrintedFloat.parseF64_text, Option.map_some, rounds x isFinite]
  empty := by
    have nothing : parseF64 [] = none := by decide +kernel
    change ((parseF64 []).map .ofExact : Option format.Number) = none
    rw [nothing]
    rfl

/-- The greatest multiple of one half up to the number. -/
def halfBelow (q : ℚ) : ℚ := ⌊2 * q⌋ / 2

theorem halfBelow_mono {p q : ℚ} (ordered : p ≤ q) : halfBelow p ≤ halfBelow q := by
  have floors : (⌊2 * p⌋ : ℚ) ≤ ⌊2 * q⌋ :=
    Int.cast_le.mpr (Int.floor_mono (mul_le_mul_of_nonneg_left ordered zero_le_two))
  exact div_le_div_of_nonneg_right floors zero_le_two

theorem halfBelow_half (k : Int) : halfBelow ((k : ℚ) / 2) = (k : ℚ) / 2 := by
  rw [halfBelow, mul_div_cancel₀ _ two_ne_zero, Int.floor_intCast]

theorem halfBelow_nat (n : Nat) : halfBelow n = n := by
  have half : (n : ℚ) = ((2 * n : Int) : ℚ) / 2 := by push_cast; ring
  rw [half, halfBelow_half]

/-- The multiples of one half. -/
def halves : FloatFormat where
  round := halfBelow
  limit := u64Max
  round_mono := halfBelow_mono
  round_round q := halfBelow_half ⌊2 * q⌋
  round_zero := by exact_mod_cast halfBelow_nat 0
  round_one := by exact_mod_cast halfBelow_nat 1
  round_u64 n fits := (halfBelow_nat n).trans_le (Nat.cast_le.mpr fits)

/-- The digit five, for an odd number of halves. -/
def halfDigits (k : Nat) : List (Fin 10) :=
  if k % 2 = 1 then ((List.finRange 10).drop 5).take 1 else []

def displayHalves (x : halves.Number) : PrintedFloat :=
  match x.value with
  | .num q =>
      let k := ⌊2 * q⌋
      .decimal (decide (k < 0)) (k.natAbs / 2) (halfDigits k.natAbs)
  | .posInf => .infinite false
  | .negInf => .infinite true
  | .nan => .nan

theorem fractionValue_halfDigits (k : Nat) :
    ((k / 2 : Nat) : ℚ) + fractionValue (halfDigits k) = (k : ℚ) / 2 := by
  have digit : fractionValue (((List.finRange 10).drop 5).take 1) = 1 / 2 := by decide +kernel
  have parts : (k : ℚ) = 2 * (k / 2 : Nat) + (k % 2 : Nat) := by
    exact_mod_cast (Nat.div_add_mod k 2).symm
  unfold halfDigits
  rcases Nat.mod_two_eq_zero_or_one k with even | odd
  · rw [even, Nat.cast_zero, add_zero] at parts
    rw [even, if_neg Nat.zero_ne_one, parts, mul_div_cancel_left₀ _ two_ne_zero]
    exact add_zero _
  · rw [odd, Nat.cast_one] at parts
    rw [odd, if_pos rfl, digit, parts, add_div, mul_div_cancel_left₀ _ two_ne_zero]

/-- What is printed of a multiple of one half is the number itself. -/
theorem amount_displayHalves {x : halves.Number} (finite : x.IsFinite) :
    (displayHalves x).amount = x.value := by
  obtain ⟨q, isValue⟩ := finite
  have half : (⌊2 * q⌋ : ℚ) / 2 = q := FloatFormat.Number.round_of_value isValue
  unfold displayHalves
  rw [isValue]
  simp only [PrintedFloat.amount, fractionValue_halfDigits, decide_eq_true_eq]
  congr 1
  split
  · rename_i negative
    have size : ((⌊2 * q⌋.natAbs : Nat) : ℚ) = -(⌊2 * q⌋ : ℚ) := by
      rw [Nat.cast_natAbs, abs_of_neg negative, Int.cast_neg]
    rw [size, neg_div, neg_neg, half]
  · rename_i nonneg
    have size : ((⌊2 * q⌋.natAbs : Nat) : ℚ) = (⌊2 * q⌋ : ℚ) := by
      rw [Nat.cast_natAbs, abs_of_nonneg (not_lt.mp nonneg)]
    rw [size, half]

theorem readsBack_halves : ReadsBack displayHalves (roundingReader halves) := by
  apply readsBack_of_rounds
  intro x finite
  rw [amount_displayHalves finite, FloatFormat.Number.ofExact_value]

/-- A process with half of the time of one core and all of that of the other. -/
def halfBusy : Sensors.Topology halves.Number Unit where
  sockets := [⟨0, [], [], 1, [], [⟨1, [], 1⟩, ⟨0, [], 1⟩], 1000⟩]
  procTracker := run Sensors.ProcessTracker.step (.empty 2 5)
    [.addProcessRecord 1 (Sensors.Topology.timedProcess [0, 0]),
      .addProcessRecord 2 (Sensors.Topology.timedProcess [5, 10])]
  recordBuffer := []
  bufferMaxKbytes := 1
  activationIdleBuffer := fun _ => []
  cpuTimeBuffer := [⟨1, ["0".toList, "0".toList], []⟩, ⟨2, ["10".toList, "10".toList], []⟩]

/-- The arrays of the report, with the numbers that the proportions stand for. -/
def shownTimes (times : Json.CoreTimes halves.Number) :
    List Nat × List Nat × List ExactFloat :=
  (times.processNs, times.totalNs, times.proportion.map FloatFormat.Number.value)

/-- The machine of the process. -/
def halfBusyReadings (process : ProcessReadings) : Readings :=
  { Json.hostWith [] [] with processes := [process] }

theorem coreTimes_read_back_half_busy :
    ∃ process times, Drawn displayHalves 0 halfBusy process ∧
      Json.coreTimes (roundingReader halves) (halfBusyReadings process).genAllMetrics.reverse 7 =
        some times ∧
      shownTimes times = ([5, 10], [10, 10], [.num (1 / 2), .num 1]) := by
  have computed : ((halfBusy.getProcessCoreTimeData 7).toOption.bind id).map (fun data =>
      shownTimes ⟨data.processNs, data.totalNs, data.proportions⟩) =
        some ([5, 10], [10, 10], [.num (1 / 2), .num 1]) := by decide +kernel
  obtain ⟨data, isData, shown⟩ := Option.map_eq_some_iff.mp computed
  have timed : halfBusy.getProcessCoreTimeData 7 = .ok (some data) := by
    cases found : halfBusy.getProcessCoreTimeData 7 with
    | error panic => rw [found] at isData; cases isData
    | ok data => rw [found] at isData; cases isData; rfl
  have succeeds : (halfBusy.getAllPerProcess 0 7).isOk = true := by decide +kernel
  obtain ⟨metrics, read⟩ : ∃ metrics, halfBusy.getAllPerProcess 0 7 = .ok metrics := by
    cases found : halfBusy.getAllPerProcess 0 7 with
    | error panic => rw [found] at succeeds; cases succeeds
    | ok metrics => exact ⟨metrics, rfl⟩
  obtain ⟨usage, power, coreTimes, drawn⟩ := exists_drawn displayHalves
    ⟨7, "sh".toList, none, [], none, none, none⟩ read
  obtain ⟨times, readTimes, carries, _⟩ := coreTimes_read_back readsBack_halves
    (Json.popped_reverse (halfBusyReadings _)) (List.forall_mem_singleton.mpr drawn)
    ⟨_, List.mem_singleton_self _, rfl⟩ timed
  refine ⟨_, times, drawn, readTimes, ?_⟩
  rw [carries.vectors]
  exact shown

end ScaphandreFormal.Exporters
