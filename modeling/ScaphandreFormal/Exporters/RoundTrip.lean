import ScaphandreFormal.Exporters.MetricLabels

/-!
# The round trip of a scrape

What the two exporters write is read back as one sample for each metric just when the texts
from outside that end up in label values hold no newline, the keys of docker labels hold no
character but those of label names and the four that are escaped, and each list of numbers
has one entry.
-/

namespace ScaphandreFormal.Exporters

open Foundation Exposition

/-! ## The labels of a process -/

/-- The name is one of those that come with a container. -/
def isAttached (key : Text) : Bool := key.take 2 = ['c', 'o'] || key.take 2 = ['k', 'u']

theorem isAttached_ofList {chars : Text} (attached : isAttached chars = true) :
    isAttached (String.ofList chars).toList = true := by
  rwa [String.toList_ofList]

theorem isAttached_labelKey (key : Text) : isAttached (labelKey key) = true := by
  have start : (labelKey key).take 2 = "container_label_".toList.take 2 :=
    List.take_append_of_le_length (by decide +kernel)
  rw [isAttached, start]
  decide +kernel

theorem Container.isAttached_insertions (container : Container) (dockerVersion : Text) :
    ∀ entry ∈ container.insertions dockerVersion, isAttached entry.1 = true := by
  refine List.forall_mem_cons.mpr ⟨isAttached_ofList rfl, ?_⟩
  refine List.forall_mem_cons.mpr ⟨isAttached_ofList rfl, ?_⟩
  refine List.forall_mem_map.mpr ?_
  exact fun label _ => isAttached_labelKey label.1

theorem Pod.isAttached_insertions (pod : Pod) :
    ∀ entry ∈ pod.insertions, isAttached entry.1 = true := by
  simp only [insertions, List.forall_mem_append, List.forall_mem_cons, forall_mem_optionalEntry]
  refine ⟨⟨⟨isAttached_ofList rfl, ?_⟩, ?_⟩, ?_⟩
  · exact fun _ _ => isAttached_ofList rfl
  · exact fun _ _ => isAttached_ofList rfl
  · exact fun _ _ => isAttached_ofList rfl

namespace Readings

theorem isAttached_dockerInsertions (readings : Readings) (containerId : Text) :
    ∀ entry ∈ readings.dockerInsertions containerId, isAttached entry.1 = true := by
  refine List.forall_mem_cons.mpr ⟨isAttached_ofList rfl, ?_⟩
  cases readings.containers.find? (·.id = containerId) with
  | none => exact List.forall_mem_nil _
  | some container => exact container.isAttached_insertions readings.dockerVersion

theorem isAttached_podInsertions (readings : Readings) (containerId : Text) :
    ∀ entry ∈ readings.podInsertions containerId, isAttached entry.1 = true := by
  refine List.forall_mem_cons.mpr ⟨isAttached_ofList rfl, ?_⟩
  cases readings.pods.find? (·.runs containerId) with
  | none => exact List.forall_mem_nil _
  | some pod => exact pod.isAttached_insertions

theorem isAttached_describeCgroups (readings : Readings) (cgroups : List Cgroup) :
    ∀ entry ∈ readings.describeCgroups cgroups, isAttached entry.1 = true := by
  induction cgroups with
  | nil => exact List.forall_mem_nil _
  | cons cg rest ih =>
      rw [describeCgroups]
      split
      · refine List.forall_mem_cons.mpr ⟨isAttached_ofList rfl, ?_⟩
        split
        · exact readings.isAttached_dockerInsertions _
        · exact ih
      · split
        · refine List.forall_mem_cons.mpr ⟨isAttached_ofList rfl, ?_⟩
          exact readings.isAttached_podInsertions _
        · split
          · exact readings.isAttached_podInsertions _
          · exact ih

theorem isAttached_containerInsertions (readings : Readings) (process : ProcessReadings) :
    ∀ entry ∈ readings.containerInsertions process, isAttached entry.1 = true := by
  intro entry member
  unfold containerInsertions at member
  split at member
  · exact readings.isAttached_describeCgroups process.cgroups entry
      (mem_of_lasts (mem_insertAll.mp member))
  · cases member

theorem sound_containerInsertions_iff (readings : Readings) (process : ProcessReadings) :
    ForallLasting Sound (readings.containerInsertions process) ↔
      (readings.watchContainers = true →
        ∀ cg ∈ process.cgroups.find? Cgroup.decides, readings.CleanCgroup cg) := by
  unfold containerInsertions
  cases watched : readings.watchContainers with
  | false => exact iff_of_true forallLasting_nil (by simp)
  | true =>
      split
      · rw [getProcessContainerDescription, forallLasting_insertAll, sound_describeCgroups_iff]
        simp
      · rename_i nothing
        have empty : readings.containers = [] ∧ readings.pods = [] := by
          simpa using nothing
        refine iff_of_true forallLasting_nil ?_
        intro _ cg _
        simp [CleanCgroup, empty.1, empty.2]

/-- The names that every process may have. -/
def processKeys : List Text := ["pid".toList, "exe".toList, "cmdline".toList, "vmname".toList]

theorem sublist_processInsertions (readings : Readings) (process : ProcessReadings) :
    ((readings.processInsertions process).map Prod.fst).Sublist processKeys := by
  refine List.Sublist.cons_cons _ (List.Sublist.cons_cons _ ?_)
  cases process.cmdline with
  | none => exact List.nil_sublist _
  | some cmdline =>
      refine List.Sublist.cons_cons _ ?_
      cases readings.qemu with
      | false => exact List.nil_sublist _
      | true => exact sublist_optionalEntry _ _

theorem nodup_processInsertions (readings : Readings) (process : ProcessReadings) :
    ((readings.processInsertions process).map Prod.fst).Nodup :=
  List.Nodup.sublist (readings.sublist_processInsertions process) (by decide +kernel)

theorem newline_not_mem_filterCmdline (cmdline : Text) : '\n' ∉ filterCmdline cmdline := by
  intro member
  exact of_decide_eq_true (List.mem_filter.mp member).2 rfl

/-- The command line is filtered; the other two texts are not. -/
theorem sound_processInsertions_iff (readings : Readings) (process : ProcessReadings) :
    ForallLasting Sound (readings.processInsertions process) ↔
      '\n' ∉ process.exe ∧ (readings.qemu = true → ∀ cmdline ∈ process.cmdline,
        ∀ vmname ∈ filterQemuCmdline cmdline, '\n' ∉ vmname) := by
  have pid : Sound ("pid".toList, toText process.pid) :=
    ⟨isLabelName_ofList (by decide +kernel), newline_not_mem_toText process.pid⟩
  have exe : Sound ("exe".toList, process.exe) ↔ '\n' ∉ process.exe :=
    and_iff_right (isLabelName_ofList (by decide +kernel))
  have filtered : ∀ cmdline, Sound ("cmdline".toList, filterCmdline cmdline) := fun cmdline =>
    ⟨isLabelName_ofList (by decide +kernel), newline_not_mem_filterCmdline cmdline⟩
  have vm : ∀ vmname, Sound ("vmname".toList, vmname) ↔ '\n' ∉ vmname := fun vmname =>
    and_iff_right (isLabelName_ofList (by decide +kernel))
  rw [forallLasting_of_nodup (readings.nodup_processInsertions process), processInsertions,
    List.forall_mem_cons, List.forall_mem_cons, and_iff_right pid, exe]
  refine and_congr_right fun _ => ?_
  cases process.cmdline with
  | none => simp
  | some cmdline =>
      simp only [Option.map_some, Option.getD_some, cmdlineInsertions, List.forall_mem_cons,
        and_iff_right (filtered cmdline), Option.mem_some_iff, forall_eq']
      cases readings.qemu with
      | false => simp
      | true => simp only [if_true, forall_mem_optionalEntry, vm, forall_const]

theorem sound_processAttributes_iff (readings : Readings) (process : ProcessReadings) :
    (∀ label ∈ readings.processAttributes process, Sound label) ↔
      ForallLasting Sound (readings.containerInsertions process) ∧
        ForallLasting Sound (readings.processInsertions process) := by
  have own : ∀ key ∈ processKeys, isAttached key = false := by decide +kernel
  rw [processAttributes, sound_insertAll_iff, forallLasting_append]
  intro entry isEntry later isLater same
  have attached := readings.isAttached_containerInsertions process entry isEntry
  have isKey : later.1 ∈ processKeys :=
    (readings.sublist_processInsertions process).subset (List.mem_map_of_mem isLater)
  rw [← same, own later.1 isKey] at attached
  cases attached

end Readings

/-! ## The values of a process -/

namespace ProcessReadings

theorem isNumber_usageMetrics (usage : UsageReadings) :
    ∀ entry ∈ usageMetrics usage, isNumber entry.2 = true := by
  simp only [usageMetrics, List.forall_mem_cons, isNumber_toText,
    usage.cpuUsagePercentage.isNumber_text, List.not_mem_nil, false_implies, implies_true,
    and_self]

section CoreTimes

variable (times : List CoreTime)

theorem isNumber_processTimes : ∀ token ∈ times.map fun time => toText time.process,
    isNumber token = true :=
  List.forall_mem_map.mpr fun time _ => isNumber_toText time.process

theorem isNumber_totalTimes : ∀ token ∈ times.map fun time => toText time.total,
    isNumber token = true :=
  List.forall_mem_map.mpr fun time _ => isNumber_toText time.total

theorem isNumber_proportions : ∀ token ∈ times.map fun time => time.proportion.text,
    isNumber token = true :=
  List.forall_mem_map.mpr fun time _ => time.proportion.isNumber_text

theorem trim_coreTimeMetrics : ∀ entry ∈ coreTimeMetrics times, trim entry.2 = entry.2 := by
  simp only [coreTimeMetrics, List.forall_mem_cons, List.not_mem_nil, false_implies,
    implies_true, and_true]
  exact ⟨trim_intercalate (isNumber_processTimes times),
    trim_intercalate (isNumber_totalTimes times), trim_intercalate (isNumber_proportions times)⟩

/-- The lists are numbers on a machine with one core. -/
theorem isNumber_coreTimeMetrics_iff :
    (∀ entry ∈ coreTimeMetrics times, isNumber entry.2 = true) ↔ times.length = 1 := by
  simp only [coreTimeMetrics, List.forall_mem_cons, List.not_mem_nil, false_implies,
    implies_true, and_true, isNumber_intercalate_iff (isNumber_processTimes times),
    isNumber_intercalate_iff (isNumber_totalTimes times),
    isNumber_intercalate_iff (isNumber_proportions times), List.length_map, and_self]

end CoreTimes

theorem trim_powerMetrics (process : ProcessReadings) (power : PrintedFloat) :
    ∀ entry ∈ process.powerMetrics power, trim entry.2 = entry.2 := by
  refine List.forall_mem_cons.mpr ⟨trim_of_isNumber power.isNumber_text, ?_⟩
  cases process.coreTimes with
  | none => exact List.forall_mem_nil _
  | some times => exact trim_coreTimeMetrics times

theorem isNumber_powerMetrics_iff (process : ProcessReadings) (power : PrintedFloat) :
    (∀ entry ∈ process.powerMetrics power, isNumber entry.2 = true) ↔
      ∀ times ∈ process.coreTimes, times.length = 1 := by
  rw [powerMetrics, List.forall_mem_cons, and_iff_right power.isNumber_text]
  cases process.coreTimes with
  | none => simp
  | some times => simpa using isNumber_coreTimeMetrics_iff times

theorem trim_getAllPerProcess (process : ProcessReadings) :
    ∀ entry ∈ process.getAllPerProcess, trim entry.2 = entry.2 := by
  refine List.forall_mem_append.mpr ⟨?_, ?_⟩
  · cases process.usage with
    | none => exact List.forall_mem_nil _
    | some usage =>
        exact fun entry member => trim_of_isNumber (isNumber_usageMetrics usage entry member)
  · cases process.power with
    | none => exact List.forall_mem_nil _
    | some power => exact process.trim_powerMetrics power

theorem isNumber_getAllPerProcess_iff (process : ProcessReadings) :
    (∀ entry ∈ process.getAllPerProcess, isNumber entry.2 = true) ↔
      (process.power.isSome = true → ∀ times ∈ process.coreTimes, times.length = 1) := by
  have usage : ∀ entry ∈ (process.usage.map usageMetrics).getD [], isNumber entry.2 = true := by
    cases process.usage with
    | none => exact List.forall_mem_nil _
    | some usage => exact isNumber_usageMetrics usage
  rw [getAllPerProcess, List.forall_mem_append, and_iff_right usage]
  cases process.power with
  | none => simp
  | some power => simpa using process.isNumber_powerMetrics_iff power

/-- There are metrics for the process. -/
def Measured (process : ProcessReadings) : Prop :=
  process.usage.isSome = true ∨ process.power.isSome = true

theorem getAllPerProcess_ne_nil_iff (process : ProcessReadings) :
    process.getAllPerProcess ≠ [] ↔ process.Measured := by
  rw [getAllPerProcess, Measured]
  cases process.usage with
  | none =>
      cases process.power with
      | none => simp
      | some power => simp [powerMetrics]
  | some usage => simp [usageMetrics]

/-- The texts of the process can be written: its name and that of its virtual machine have no
newline, nor has what is known of its container, and there is one core in its lists. -/
structure Clean (process : ProcessReadings) (readings : Readings) : Prop where
  exe : '\n' ∉ process.exe
  vmname : readings.qemu = true → ∀ cmdline ∈ process.cmdline,
    ∀ vmname ∈ filterQemuCmdline cmdline, '\n' ∉ vmname
  container : readings.watchContainers = true →
    ∀ cg ∈ process.cgroups.find? Cgroup.decides, readings.CleanCgroup cg
  coreTimes : process.power.isSome = true → ∀ times ∈ process.coreTimes, times.length = 1

end ProcessReadings

namespace Readings

theorem headed_genProcessMetrics {readings : Readings} {metric : Metric}
    (member : metric ∈ readings.genProcessMetrics) : metric.Headed := by
  obtain ⟨process, _, inside⟩ := List.mem_flatMap.mp member
  obtain ⟨entry, isEntry, rfl⟩ := List.mem_map.mp inside
  exact entry.1.headed_metric _ (Or.inl (process.trim_getAllPerProcess entry isEntry).symm)

theorem readable_process_iff (readings : Readings) (process : ProcessReadings) :
    (∀ entry ∈ process.getAllPerProcess,
      (entry.1.metric (readings.processAttributes process) (.text entry.2)).Readable) ↔
        (process.Measured → process.Clean readings) := by
  have readable : ∀ entry ∈ process.getAllPerProcess,
      ((entry.1.metric (readings.processAttributes process) (.text entry.2)).Readable ↔
        (∀ label ∈ readings.processAttributes process, Sound label) ∧
          isNumber entry.2 = true) := by
    intro entry isEntry
    have trimmed := process.trim_getAllPerProcess entry isEntry
    have shown : trim (entry.1.metric (readings.processAttributes process)
        (.text entry.2)).metricValue.toText = entry.2 := trimmed
    rw [Metric.readable_iff, shown]
    rfl
  have split := readings.sound_processAttributes_iff process
  rw [readings.sound_containerInsertions_iff, readings.sound_processInsertions_iff] at split
  constructor
  · intro all measured
    obtain ⟨entry, isEntry⟩ :=
      List.exists_mem_of_ne_nil _ (process.getAllPerProcess_ne_nil_iff.mpr measured)
    obtain ⟨container, exe, vmname⟩ := split.mp ((readable entry isEntry).mp (all entry isEntry)).1
    refine ⟨exe, vmname, container, process.isNumber_getAllPerProcess_iff.mp ?_⟩
    exact fun other isOther => ((readable other isOther).mp (all other isOther)).2
  · intro clean entry isEntry
    obtain ⟨exe, vmname, container, coreTimes⟩ :=
      clean (process.getAllPerProcess_ne_nil_iff.mp (List.ne_nil_of_mem isEntry))
    refine (readable entry isEntry).mpr ⟨split.mpr ⟨container, exe, vmname⟩, ?_⟩
    exact process.isNumber_getAllPerProcess_iff.mpr coreTimes entry isEntry

theorem readable_genProcessMetrics_iff (readings : Readings) :
    (∀ metric ∈ readings.genProcessMetrics, metric.Readable) ↔
      ∀ process ∈ readings.processes, process.Measured → process.Clean readings := by
  simp only [genProcessMetrics, List.forall_mem_flatMap, List.forall_mem_map,
    readable_process_iff]

end Readings

/-! ## The exporters -/

/-- The exporters that write the text format. -/
inductive TextExporter where
  | prometheus
  | prometheusPush
  deriving DecidableEq, Repr

/-- The loop of `PrometheusPushExporter::run`, which takes the attributes for given. -/
def writeMetrics : List Metric → List Text → Text → Text
  | [], _, body => body
  | m :: rest, metricsPushed, body =>
      let line := formatPrometheusMetric m.name m.metricValue.toText (some m.attributes)
      if m.name ∈ metricsPushed then
        writeMetrics rest metricsPushed
          (pushMetric body m.description m.metricType m.name line false)
      else
        writeMetrics rest (m.name :: metricsPushed)
          (pushMetric body m.description m.metricType m.name line true)

theorem writeMetrics_eq {metrics : List Metric} (labelled : ∀ m ∈ metrics, m.attributes ≠ [])
    (metricsPushed : List Text) (body : Text) :
    writeMetrics metrics metricsPushed body = pushMetrics metrics metricsPushed body := by
  induction metrics generalizing metricsPushed body with
  | nil => rfl
  | cons m rest ih =>
      obtain ⟨here, later⟩ := List.forall_mem_cons.mp labelled
      have line : m.line = formatPrometheusMetric m.name m.metricValue.toText
          (some m.attributes) := by
        rw [Metric.line, if_neg (by simpa using here)]
      rw [writeMetrics, pushMetrics, line]
      simp only [ih later]

/-- `insert`, unless the key is there. -/
def insertAbsent (attributes : List (Text × Text)) (entry : Text × Text) : List (Text × Text) :=
  if entry.1 ∈ attributes.map Prod.fst then attributes else insertEntry attributes entry

theorem mem_insertAbsent_nil (entry : Text × Text) : entry ∈ insertAbsent [] entry := by
  simp [insertAbsent, insertEntry]

theorem mem_insertAbsent_of_mem {attributes : List (Text × Text)} {label : Text × Text}
    (member : label ∈ attributes) (entry : Text × Text) :
    label ∈ insertAbsent attributes entry := by
  unfold insertAbsent
  split
  · exact member
  · rename_i absent
    refine mem_insertEntry.mpr (Or.inl ⟨member, ?_⟩)
    intro same
    exact absent (List.mem_map.mpr ⟨label, member, same⟩)

theorem sound_insertAbsent_iff {attributes : List (Text × Text)} {entry : Text × Text}
    (holds : Sound entry) :
    (∀ label ∈ insertAbsent attributes entry, Sound label) ↔
      ∀ label ∈ attributes, Sound label := by
  constructor
  · exact fun sound label isLabel => sound label (mem_insertAbsent_of_mem isLabel entry)
  · intro sound label isLabel
    unfold insertAbsent at isLabel
    split at isLabel
    · exact sound label isLabel
    · rcases mem_insertEntry.mp isLabel with ⟨old, _⟩ | rfl
      · exact sound label old
      · exact holds

theorem insertAbsent_ne_nil (attributes : List (Text × Text)) (entry : Text × Text) :
    insertAbsent attributes entry ≠ [] := by
  unfold insertAbsent
  split
  · rintro rfl
    contradiction
  · simp [insertEntry]

namespace TextExporter

/-- The attributes that are written: the push exporter adds the name of the host. -/
def attributes (exporter : TextExporter) (hostname : Text) (own : List (Text × Text)) :
    List (Text × Text) :=
  match exporter with
  | .prometheus => own
  | .prometheusPush =>
      insertAbsent (insertAbsent own ("instance".toList, hostname)) ("hostname".toList, hostname)

def prepare (exporter : TextExporter) (hostname : Text) (metric : Metric) : Metric :=
  { metric with attributes := exporter.attributes hostname metric.attributes }

/-- The body for the metrics that were popped. -/
def body (exporter : TextExporter) (metrics : List Metric) : Text :=
  match exporter with
  | .prometheus => pushMetrics metrics [] []
  | .prometheusPush => writeMetrics metrics [] []

/-- The host name can be written, where it is. -/
def CleanHost (exporter : TextExporter) (hostname : Text) : Prop :=
  exporter = .prometheusPush → '\n' ∉ hostname

theorem readable_prepare_iff {exporter : TextExporter} {hostname : Text}
    (clean : exporter.CleanHost hostname) (metric : Metric) :
    (exporter.prepare hostname metric).Readable ↔ metric.Readable := by
  rw [Metric.readable_iff, Metric.readable_iff]
  refine and_congr_left fun _ => ?_
  cases exporter with
  | prometheus => exact Iff.rfl
  | prometheusPush =>
      have isInstance : Sound ("instance".toList, hostname) :=
        ⟨isLabelName_ofList (by decide +kernel), clean rfl⟩
      have isHostname : Sound ("hostname".toList, hostname) :=
        ⟨isLabelName_ofList (by decide +kernel), clean rfl⟩
      exact (sound_insertAbsent_iff isHostname).trans (sound_insertAbsent_iff isInstance)

/-- A metric without labels shows whether the host name can be written. -/
theorem cleanHost_of_readable {exporter : TextExporter} {hostname : Text} {metric : Metric}
    (unlabelled : metric.attributes = [])
    (readable : (exporter.prepare hostname metric).Readable) : exporter.CleanHost hostname := by
  rintro rfl
  have first : ("instance".toList, hostname) ∈
      insertAbsent metric.attributes ("instance".toList, hostname) := by
    rw [unlabelled]
    exact mem_insertAbsent_nil _
  exact readable.values _ (mem_insertAbsent_of_mem first _)

end TextExporter

/-- The metric as it is written: the attributes stand in the order in which the map yields
them. -/
structure Metric.Arranged (built metric : Metric) : Prop where
  attributes : metric.attributes.Perm built.attributes
  same : metric = { built with attributes := metric.attributes }

theorem Metric.Arranged.headed {built metric : Metric} (arranged : built.Arranged metric)
    (headed : built.Headed) : metric.Headed := by
  rw [arranged.same]
  exact ⟨headed.name, headed.metricType, headed.description, headed.value⟩

theorem Metric.Arranged.readable_iff {built metric : Metric} (arranged : built.Arranged metric) :
    metric.Readable ↔ built.Readable := by
  have value : metric.metricValue = built.metricValue := by rw [arranged.same]
  rw [Metric.readable_iff, Metric.readable_iff, value]
  refine and_congr_left fun _ => ?_
  simp only [arranged.attributes.mem_iff]

namespace Readings

/-- The texts that are read can be written by the exporter. -/
structure Clean (readings : Readings) (exporter : TextExporter) : Prop where
  hostname : exporter.CleanHost readings.hostname
  disks : ∀ disk ∈ readings.disks.getLast?, disk.Clean
  processes : ∀ process ∈ readings.processes, process.Measured → process.Clean readings

theorem headed_genAllMetrics {readings : Readings} {metric : Metric}
    (member : metric ∈ readings.genAllMetrics) : metric.Headed := by
  have own : ∀ metrics : List OwnMetric, ∀ metric ∈ metrics.map OwnMetric.metric,
      metric.Headed := fun metrics => List.forall_mem_map.mpr fun metric _ => metric.headed
  simp only [genAllMetrics, genHostMetrics, List.mem_append] at member
  rcases member with (((self | ((before | disk) | after)) | socket) | system) | process
  · exact own _ metric self
  · exact own _ metric before
  · exact headed_diskMetrics disk
  · exact own _ metric after
  · exact own _ metric socket
  · exact own _ metric system
  · exact headed_genProcessMetrics process

theorem readable_genAllMetrics_iff (readings : Readings) :
    (∀ metric ∈ readings.genAllMetrics, metric.Readable) ↔
      (∀ disk ∈ readings.disks.getLast?, disk.Clean) ∧
        ∀ process ∈ readings.processes, process.Measured → process.Clean readings := by
  have own : ∀ metrics : List OwnMetric, ∀ metric ∈ metrics.map OwnMetric.metric,
      metric.Readable := fun metrics => List.forall_mem_map.mpr fun metric _ => metric.readable
  simp only [genAllMetrics, genHostMetrics, List.forall_mem_append]
  rw [readable_diskMetrics_iff, readable_genProcessMetrics_iff]
  constructor
  · rintro ⟨⟨⟨⟨_, ⟨_, disks⟩, _⟩, _⟩, _⟩, processes⟩
    exact ⟨disks, processes⟩
  · rintro ⟨disks, processes⟩
    exact ⟨⟨⟨⟨own _, ⟨own _, disks⟩, own _⟩, own _⟩, own _⟩, processes⟩

/-- The version is among the metrics, without labels. -/
theorem exists_unlabelled (readings : Readings) :
    ∃ metric ∈ readings.genAllMetrics, metric.attributes = [] := by
  refine ⟨OwnMetric.metric ⟨.selfVersion, [], .version⟩, ?_, rfl⟩
  simp [genAllMetrics, genSelfMetrics]

/-- What was generated can be written just when the texts that were read can be. -/
theorem readable_prepared_iff (readings : Readings) (exporter : TextExporter) :
    (∀ metric ∈ readings.genAllMetrics,
      (exporter.prepare readings.hostname metric).Readable) ↔ readings.Clean exporter := by
  constructor
  · intro readable
    obtain ⟨metric, isMetric, unlabelled⟩ := readings.exists_unlabelled
    have hostname := TextExporter.cleanHost_of_readable unlabelled (readable metric isMetric)
    obtain ⟨disks, processes⟩ := readings.readable_genAllMetrics_iff.mp fun other isOther =>
      (TextExporter.readable_prepare_iff hostname other).mp (readable other isOther)
    exact ⟨hostname, disks, processes⟩
  · rintro ⟨hostname, disks, processes⟩ metric isMetric
    rw [TextExporter.readable_prepare_iff hostname]
    exact readings.readable_genAllMetrics_iff.mpr ⟨disks, processes⟩ metric isMetric

end Readings

/-! ## The round trip -/

namespace TextExporter

/-- The exporter writes the metrics for what was read: all that are generated, in the order in
which they are popped, each with its attributes in some order. -/
def Writes (exporter : TextExporter) (readings : Readings) (metrics : List Metric) : Prop :=
  ∃ popped : List Metric, popped.Perm readings.genAllMetrics ∧
    List.Forall₂ (fun built metric =>
      (exporter.prepare readings.hostname built).Arranged metric) popped metrics

/-- The body parses to one sample for each metric, in order, with its name, its value and its
labels, which lose their quotes, backslashes and newlines at most. -/
def RoundTrips (exporter : TextExporter) (metrics : List Metric) : Prop :=
  parse (exporter.body metrics) = some (metrics.map Metric.sample)

section Writes

variable {exporter : TextExporter} {readings : Readings} {metrics : List Metric}

theorem Writes.exists_built (written : exporter.Writes readings metrics) {metric : Metric}
    (member : metric ∈ metrics) : ∃ built ∈ readings.genAllMetrics,
      (exporter.prepare readings.hostname built).Arranged metric := by
  obtain ⟨popped, same, arranged⟩ := written
  obtain ⟨built, isBuilt, pair⟩ := (exists_mem_of_forall₂ arranged).2 metric member
  exact ⟨built, same.mem_iff.mp isBuilt, pair⟩

theorem Writes.exists_metric (written : exporter.Writes readings metrics) {built : Metric}
    (member : built ∈ readings.genAllMetrics) : ∃ metric ∈ metrics,
      (exporter.prepare readings.hostname built).Arranged metric := by
  obtain ⟨popped, same, arranged⟩ := written
  exact (exists_mem_of_forall₂ arranged).1 built (same.mem_iff.mpr member)

theorem Writes.headed (written : exporter.Writes readings metrics) :
    ∀ metric ∈ metrics, metric.Headed := by
  intro metric member
  obtain ⟨built, isBuilt, arranged⟩ := written.exists_built member
  have headed := Readings.headed_genAllMetrics isBuilt
  exact arranged.headed ⟨headed.name, headed.metricType, headed.description, headed.value⟩

/-- The push exporter has labels for every metric. -/
theorem Writes.body_eq (written : exporter.Writes readings metrics) :
    exporter.body metrics = pushMetrics metrics [] [] := by
  cases exporter with
  | prometheus => rfl
  | prometheusPush =>
      refine writeMetrics_eq ?_ [] []
      intro metric member empty
      obtain ⟨built, _, arranged⟩ := written.exists_built member
      have none := arranged.attributes
      rw [empty] at none
      exact insertAbsent_ne_nil _ _ none.nil_eq.symm

theorem Writes.readable_iff (written : exporter.Writes readings metrics) :
    (∀ metric ∈ metrics, metric.Readable) ↔ readings.Clean exporter := by
  rw [← Readings.readable_prepared_iff]
  constructor
  · intro readable built isBuilt
    obtain ⟨metric, isMetric, arranged⟩ := written.exists_metric isBuilt
    exact arranged.readable_iff.mp (readable metric isMetric)
  · intro readable metric isMetric
    obtain ⟨built, isBuilt, arranged⟩ := written.exists_built isMetric
    exact arranged.readable_iff.mpr (readable built isBuilt)

end Writes

/-- The metrics may be popped in the reverse order and stand as they were built. -/
theorem writes_reverse (exporter : TextExporter) (readings : Readings) :
    exporter.Writes readings
      (readings.genAllMetrics.reverse.map (exporter.prepare readings.hostname)) := by
  refine ⟨readings.genAllMetrics.reverse, List.reverse_perm _, ?_⟩
  rw [List.forall₂_map_right_iff]
  exact List.forall₂_same.mpr fun built _ => ⟨List.Perm.refl _, rfl⟩

/-- The round trip succeeds just when the texts that were read can be written. -/
theorem roundTrips_iff_clean {exporter : TextExporter} {readings : Readings}
    {metrics : List Metric} (written : exporter.Writes readings metrics) :
    exporter.RoundTrips metrics ↔ readings.Clean exporter := by
  rw [RoundTrips, written.body_eq, parse_body_iff written.headed, written.readable_iff]

/-- A docker container with a label. -/
def webContainer : Container where
  id := "0123456789ab".toList
  names := ["/web".toList]
  labels := some [("com.docker.compose-service".toList, "the \"front\"".toList)]

def rootDisk : Disk where
  fileSystem := some "ext4".toList
  mountPoint := some "/".toList
  type := .ssd
  isRemovable := false
  name := some "/dev/sda1".toList
  totalSpace := 500
  availableSpace := 200

/-- The cgroup of the container's processes. -/
def webCgroup : Cgroup := ⟨"/docker/0123456789ab".toList, not_mem_ofList (by decide)⟩

/-- A machine with one core, one disk and one process, in a container. -/
def oneProcess (exe : Text) : Readings where
  hostname := "host".toList
  selfCpuUsage := none
  selfMemoryVirtual := none
  selfMemory := none
  statsNb := 0
  procsNb := 1
  hasPsys := false
  hasSourceFile := false
  hasDriverName := false
  records := []
  power := none
  idlePower := none
  activationPower := none
  backgroundPower := none
  corePowers := none
  coreCoefs := []
  coreProportions := []
  loadAvg := none
  cpuFrequency := 0
  disks := [rootDisk]
  totalMemory := 0
  availableMemory := 0
  freeMemory := 0
  freeSwap := 0
  totalSwap := 0
  sockets := []
  nbProcessTotal := none
  nbProcessRunning := none
  nbProcessBlocked := none
  nbContextSwitches := none
  qemu := true
  watchContainers := true
  containers := [webContainer]
  dockerVersion := "24.0".toList
  pods := []
  processes :=
    [{ pid := 1
       exe := exe
       cmdline := some "sh -c \"a\nb\"".toList
       cgroups := [webCgroup]
       usage := none
       power := some (.decimal false 0 [5])
       coreTimes := some [⟨1, 2, .decimal false 0 [5]⟩] }]

theorem roundTrips_iff_clean_in_container :
    TextExporter.prometheusPush.Writes (oneProcess "sh".toList)
      ((oneProcess "sh".toList).genAllMetrics.reverse.map
        (TextExporter.prometheusPush.prepare "host".toList)) ∧
      TextExporter.prometheusPush.RoundTrips
        ((oneProcess "sh".toList).genAllMetrics.reverse.map
          (TextExporter.prometheusPush.prepare "host".toList)) := by
  have written := writes_reverse .prometheusPush (oneProcess "sh".toList)
  have disk : rootDisk.Clean := by
    refine ⟨?_, ?_, ?_⟩
    · exact fun text same => Option.mem_some_iff.mp same ▸ not_mem_ofList (by decide)
    · exact fun text same => Option.mem_some_iff.mp same ▸ not_mem_ofList (by decide)
    · exact fun text same => Option.mem_some_iff.mp same ▸ not_mem_ofList (by decide)
  have container : webContainer.Clean "24.0".toList := by
    refine ⟨by decide +kernel, not_mem_ofList (by decide), ?_,
      Container.newline_not_mem_of_labels ?_⟩
    · exact List.forall_mem_singleton.mpr (Container.escapableKey_of_all (by decide +kernel))
    · exact List.forall_mem_singleton.mpr (not_mem_ofList (by decide))
  refine ⟨written, (roundTrips_iff_clean written).mpr ⟨?_, ?_, ?_⟩⟩
  · exact fun _ => not_mem_ofList (by decide)
  · exact fun other same => Option.mem_some_iff.mp same ▸ disk
  · refine List.forall_mem_singleton.mpr fun _ => ⟨?_, ?_, ?_, ?_⟩
    · exact not_mem_ofList (by decide)
    · have noGuest : filterQemuCmdline "sh -c \"a\nb\"".toList = none := by decide +kernel
      intro _ cmdline isCmdline
      rw [← Option.mem_some_iff.mp isCmdline, noGuest]
      simp
    · intro _ cg decides
      have isWeb : [webCgroup].find? Cgroup.decides = some webCgroup := by decide +kernel
      have docker : regexCgroupDocker webCgroup.pathname = true := by decide +kernel
      have captured : regexCleanContainerId webCgroup.pathname =
          some webContainer.id := by decide +kernel
      obtain rfl := Option.mem_some_iff.mp (isWeb ▸ decides)
      rw [Readings.CleanCgroup, if_pos docker, captured]
      intro containerId isId other found
      obtain rfl := Option.mem_some_iff.mp isId
      have listed : (oneProcess "sh".toList).containers.find? (·.id = webContainer.id) =
          some webContainer := by decide +kernel
      obtain rfl := Option.mem_some_iff.mp (listed ▸ found)
      exact container
    · simp

/-- A newline in the name of a process breaks the body. -/
theorem not_roundTrips_of_newline_in_exe :
    ¬ ∀ (exporter : TextExporter) (readings : Readings) (metrics : List Metric),
      exporter.Writes readings metrics → exporter.RoundTrips metrics := by
  intro always
  have written := writes_reverse .prometheus (oneProcess "s\nh".toList)
  have trips := always .prometheus _ _ written
  rw [RoundTrips, written.body_eq, parse_body_iff written.headed, written.readable_iff] at trips
  have clean := trips.processes _ (List.mem_singleton_self _) (Or.inr rfl)
  exact clean.exe (by decide +kernel)

end TextExporter

/-! ## Command lines -/

theorem documented_append (first second : Text) :
    documented (first ++ second) = documented first ++ documented second := by
  simp [documented, sanitized]

theorem filterCmdline_cons (c : Char) (rest : Text) :
    filterCmdline (c :: rest) = filterCmdline [c] ++ filterCmdline rest := by
  simp [filterCmdline]

/-- The filter of command lines changes nothing that the writing would not. -/
theorem documented_filterCmdline (cmdline : Text) :
    documented (filterCmdline cmdline) = documented cmdline := by
  have single : ∀ c : Char, documented (filterCmdline [c]) = documented [c] := by
    intro c
    by_cases quote : c = '"'
    · subst quote
      decide
    · by_cases newline : c = '\n'
      · subst newline
        decide
      · simp [filterCmdline, quote, newline]
  induction cmdline with
  | nil => rfl
  | cons c rest ih =>
      rw [filterCmdline_cons, documented_append, single, ih, ← documented_append]
      rfl

namespace Readings

theorem cmdline_mem_processAttributes (readings : Readings) {process : ProcessReadings}
    {cmdline : Text} (isCmdline : process.cmdline = some cmdline) :
    ("cmdline".toList, filterCmdline cmdline) ∈ readings.processAttributes process := by
  have inserted : ("cmdline".toList, filterCmdline cmdline) ∈
      readings.processInsertions process := by
    rw [processInsertions, isCmdline]
    exact .tail _ (.tail _ List.mem_cons_self)
  exact mem_insertAll.mpr
    (lasts_append_of_nodup (readings.nodup_processInsertions process) inserted)

/-- Every sample of a process shows its command line as it was read, under the documented
replacements alone. -/
theorem cmdline_mem_sample {readings : Readings} {metric : Metric}
    (member : metric ∈ readings.genProcessMetrics) :
    ∃ process ∈ readings.processes, ∀ cmdline ∈ process.cmdline,
      ("cmdline".toList, documented cmdline) ∈ metric.sample.labels := by
  obtain ⟨process, isProcess, inside⟩ := List.mem_flatMap.mp member
  obtain ⟨entry, _, rfl⟩ := List.mem_map.mp inside
  refine ⟨process, isProcess, fun cmdline isCmdline => ?_⟩
  rw [← documented_filterCmdline]
  exact List.mem_map.mpr ⟨_, readings.cmdline_mem_processAttributes isCmdline, rfl⟩

end Readings

end ScaphandreFormal.Exporters
