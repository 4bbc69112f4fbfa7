import ScaphandreFormal.Exporters.MetricGenerator
import ScaphandreFormal.Exporters.PrometheusText

/-!
# Values and labels that can be read back

The values that the program prints are numbers, except for the lists with a number for each
core.  The labels that it makes itself can be read back; for those with texts from outside
this comes down to conditions on the texts.
-/

namespace ScaphandreFormal.Exporters

open Foundation Exposition
open Sensors.Powercap (DomainResource)

/-! ## Values -/

namespace PrintedFloat

theorem isDigit_of_mem_digits {fraction : List (Fin 10)} {c : Char}
    (member : c ∈ digits fraction) : c.isDigit = true := by
  obtain ⟨digit, _, rfl⟩ := List.mem_map.mp member
  have all : ∀ digit : Fin 10, (Nat.digitChar digit.val).isDigit = true := by decide
  exact all digit

/-- Digits with a sign before them and a fraction behind them are a number. -/
theorem isNumber_signed (negative : Bool) (whole : Nat) {tail : Text}
    (shape : tail = [] ∨ ∃ fraction : Text, tail = '.' :: fraction ∧
      ∀ c ∈ fraction, c.isDigit = true) :
    isNumber (sign negative ++ (toText whole ++ tail)) = true := by
  have digits : ∀ c ∈ toText whole, c.isDigit = true :=
    fun c member => isDigit_of_mem_toText member
  have scientific := isScientific_of_digits (toText_ne_nil whole) digits shape
  apply isNumber_of_isScientific
  cases negative with
  | true => exact scientific
  | false =>
      change isScientific (withoutSign (toText whole ++ tail)) = true
      rw [withoutSign_of_isDigit (toText_ne_nil whole) digits]
      exact scientific

theorem isNumber_text (x : PrintedFloat) : isNumber x.text = true := by
  cases x with
  | nan => decide +kernel
  | infinite negative => cases negative <;> decide +kernel
  | decimal negative whole fraction =>
      cases fraction with
      | nil =>
          have signed := isNumber_signed negative whole (Or.inl rfl)
          rwa [List.append_nil] at signed
      | cons digit others =>
          exact isNumber_signed negative whole
            (Or.inr ⟨_, rfl, fun c member => isDigit_of_mem_digits member⟩)

end PrintedFloat

theorem isNumber_toText (n : Nat) : isNumber (toText n) = true := by
  have unsigned := PrintedFloat.isNumber_signed false n (Or.inl rfl)
  rwa [List.append_nil] at unsigned

theorem isWhitespace_of_mem_number {token : Text} (number : isNumber token = true) :
    ∀ c ∈ token, isWhitespace c = false :=
  fun c member => isWhitespace_of_isNumberChar (isNumberChar_of_isNumber number c member)

theorem trim_of_isNumber {token : Text} (number : isNumber token = true) : trim token = token :=
  trim_of_visible (isWhitespace_of_mem_number number)

/-- The value of a metric is a number, with a newline behind it at most. -/
structure Numeric (value : MetricValueType) : Prop where
  shape : value.toText = trim value.toText ∨ value.toText = trim value.toText ++ ['\n']
  number : isNumber (trim value.toText) = true

theorem numeric_text {token : Text} (number : isNumber token = true) :
    Numeric (.text token) := by
  have trimmed : trim (MetricValueType.text token).toText = token := trim_of_isNumber number
  refine ⟨Or.inl trimmed.symm, ?_⟩
  rw [trimmed]
  exact number

theorem numeric_reading (reading : Reading) : Numeric reading.value := by
  cases reading with
  | version => exact numeric_text (by decide +kernel)
  | count n =>
      have trimmed : trim (Reading.count n).value.toText = toText n := trim_toText n
      refine ⟨Or.inl trimmed.symm, ?_⟩
      rw [trimmed]
      exact isNumber_toText n
  | number n => exact numeric_text (isNumber_toText n)
  | float x => exact numeric_text x.isNumber_text
  | counterFile n newline =>
      cases newline with
      | false =>
          have whole : (Reading.counterFile n false).value = .text (toText n) := by
            simp [Reading.value]
          rw [whole]
          exact numeric_text (isNumber_toText n)
      | true =>
          have trimmed : trim (Reading.counterFile n true).value.toText = toText n :=
            trim_toText_newline n
          refine ⟨Or.inr ?_, ?_⟩
          · rw [trimmed]
            rfl
          · rw [trimmed]
            exact isNumber_toText n

/-! ## Lists of numbers -/

theorem mem_intercalate {tokens : List Text} {c : Char}
    (member : c ∈ [','].intercalate tokens) : c = ',' ∨ ∃ token ∈ tokens, c ∈ token := by
  induction tokens with
  | nil => cases member
  | cons token others ih =>
      cases others with
      | nil =>
          rw [List.intercalate_singleton] at member
          exact Or.inr ⟨token, List.mem_singleton_self _, member⟩
      | cons next later =>
          rw [List.intercalate_cons_cons, List.mem_append, List.mem_append,
            List.mem_singleton] at member
          rcases member with (here | comma) | rest
          · exact Or.inr ⟨token, List.mem_cons_self, here⟩
          · exact Or.inl comma
          · rcases ih rest with comma | ⟨other, isOther, inside⟩
            · exact Or.inl comma
            · exact Or.inr ⟨other, List.mem_cons_of_mem _ isOther, inside⟩

/-- A list of numbers has no white space. -/
theorem trim_intercalate {tokens : List Text} (numbers : ∀ token ∈ tokens, isNumber token = true) :
    trim ([','].intercalate tokens) = [','].intercalate tokens := by
  apply trim_of_visible
  intro c member
  rcases mem_intercalate member with rfl | ⟨token, isToken, inside⟩
  · decide
  · exact isWhitespace_of_mem_number (numbers token isToken) c inside

/-- A list of numbers is a number when it has one entry. -/
theorem isNumber_intercalate_iff {tokens : List Text}
    (numbers : ∀ token ∈ tokens, isNumber token = true) :
    isNumber ([','].intercalate tokens) = true ↔ tokens.length = 1 := by
  cases tokens with
  | nil => decide +kernel
  | cons token others =>
      cases others with
      | nil =>
          rw [List.intercalate_singleton]
          exact iff_of_true (numbers token List.mem_cons_self) rfl
      | cons next later =>
          refine iff_of_false ?_ (by simp)
          intro number
          have comma : ',' ∈ [','].intercalate (token :: next :: later) := by
            simp [List.intercalate_cons_cons]
          exact absurd (isNumberChar_of_isNumber number ',' comma) (by decide)

/-! ## Families and labels -/

theorem newline_not_mem_toText (n : Nat) : '\n' ∉ toText n :=
  Metric.newline_not_mem_of_isNumber (isNumber_toText n)

theorem newline_not_mem_resource (resource : DomainResource) : '\n' ∉ resource.text := by
  cases resource <;> decide

namespace Family

theorem isMetricName_name (family : Family) : isMetricName family.name = true := by
  cases family <;> exact isMetricName_ofList (by decide +kernel)

theorem metricType_mem (family : Family) : family.metricType ∈ metricTypes := by
  have gauge : "gauge".toList ∈ metricTypes := by simp [metricTypes]
  have counter : "counter".toList ∈ metricTypes := by simp [metricTypes]
  cases family <;> first | exact gauge | exact counter

theorem newline_not_mem_description (family : Family) : '\n' ∉ family.description := by
  cases family with
  | socketRaplMmioEnergyMicrojoules socketId =>
      intro member
      rcases List.mem_append.mp member with start | number
      · exact not_mem_ofList (by decide +kernel) start
      · exact newline_not_mem_toText socketId number
  | domainRaplMmioEnergyMicrojoules domainName socketId =>
      intro member
      rcases List.mem_append.mp member with most | point
      · rcases List.mem_append.mp most with more | number
        · rcases List.mem_append.mp more with named | middle
          · rcases List.mem_append.mp named with start | name
            · exact not_mem_ofList (by decide +kernel) start
            · exact newline_not_mem_resource domainName name
          · exact not_mem_ofList (by decide +kernel) middle
        · exact newline_not_mem_toText socketId number
      · exact not_mem_ofList (by decide +kernel) point
  | _ =>
      first
      | exact not_mem_ofList (by decide +kernel)
      | exact List.not_mem_append (not_mem_ofList (by decide +kernel))
          (not_mem_ofList (by decide +kernel))

/-- A metric of a family starts as it should. -/
theorem headed_metric (family : Family) (attributes : List (Text × Text))
    {value : MetricValueType} (shape : value.toText = trim value.toText ∨
      value.toText = trim value.toText ++ ['\n']) : (family.metric attributes value).Headed := by
  exact ⟨family.isMetricName_name, family.metricType_mem, family.newline_not_mem_description,
    shape⟩

end Family

/-- The label can be read back. -/
def Sound (label : Text × Text) : Prop := isLabelName label.1 = true ∧ '\n' ∉ label.2

theorem Metric.readable_iff {metric : Metric} :
    metric.Readable ↔ (∀ label ∈ metric.attributes, Sound label) ∧
      isNumber (trim metric.metricValue.toText) = true := by
  constructor
  · rintro ⟨names, values, number⟩
    exact ⟨fun label member => ⟨names label member, values label member⟩, number⟩
  · rintro ⟨sound, number⟩
    exact ⟨fun label member => (sound label member).1, fun label member => (sound label member).2,
      number⟩

theorem sound_insertAll_iff {insertions : List (Text × Text)} :
    (∀ label ∈ insertAll insertions, Sound label) ↔ ForallLasting Sound insertions := by
  simp only [mem_insertAll, ForallLasting]

/-- A text from outside under a fixed name can be read back unless it has a newline. -/
theorem sound_optionalEntry_iff {key : Text} (named : isLabelName key = true)
    (text : Option Text) :
    (∀ entry ∈ optionalEntry key text, Sound entry) ↔ ∀ value ∈ text, '\n' ∉ value := by
  rw [forall_mem_optionalEntry]
  exact forall₂_congr fun value _ => and_iff_right named

theorem sound_entry (label : OwnLabel) : Sound label.entry := by
  refine ⟨?_, ?_⟩
  · cases label <;> exact isLabelName_ofList (by decide +kernel)
  · cases label with
    | socketId id => exact newline_not_mem_toText id
    | coreId id => exact newline_not_mem_toText id
    | domainId id => exact newline_not_mem_toText id
    | domainName name => exact newline_not_mem_resource name
    | raplDomainName name => exact newline_not_mem_resource name
    | valueSource source => cases source <;> exact not_mem_ofList (by decide +kernel)

namespace OwnMetric

theorem headed (own : OwnMetric) : own.metric.Headed :=
  own.family.headed_metric _ (numeric_reading own.reading).shape

/-- A metric without any text from outside can always be read back. -/
theorem readable (own : OwnMetric) : own.metric.Readable := by
  refine Metric.readable_iff.mpr ⟨sound_insertAll_iff.mpr ?_, (numeric_reading own.reading).number⟩
  intro entry lasting
  obtain ⟨label, _, rfl⟩ := List.mem_map.mp (mem_of_lasts lasting)
  exact sound_entry label

end OwnMetric

/-! ## Disks -/

namespace Disk

/-- The texts of the disk have no newline. -/
structure Clean (disk : Disk) : Prop where
  fileSystem : ∀ text ∈ disk.fileSystem, '\n' ∉ text
  mountPoint : ∀ text ∈ disk.mountPoint, '\n' ∉ text
  name : ∀ text ∈ disk.name, '\n' ∉ text

theorem sound_attributes_iff (disk : Disk) :
    (∀ label ∈ disk.attributes, Sound label) ↔ disk.Clean := by
  have keys : ["disk_file_system".toList, "disk_mount_point".toList, "disk_type".toList,
      "disk_is_removable".toList, "disk_name".toList].Nodup := by
    decide +kernel
  have type : Sound ("disk_type".toList, disk.type.text) := by
    refine ⟨isLabelName_ofList (by decide +kernel), ?_⟩
    cases disk.type <;> exact not_mem_ofList (by decide +kernel)
  have removable : Sound ("disk_is_removable".toList,
      if disk.isRemovable then "true".toList else "false".toList) := by
    refine ⟨isLabelName_ofList (by decide +kernel), ?_⟩
    cases disk.isRemovable <;> exact not_mem_ofList (by decide +kernel)
  have fileSystem := sound_optionalEntry_iff
    (show isLabelName "disk_file_system".toList = true from isLabelName_ofList (by decide +kernel))
    disk.fileSystem
  have mountPoint := sound_optionalEntry_iff
    (show isLabelName "disk_mount_point".toList = true from isLabelName_ofList (by decide +kernel))
    disk.mountPoint
  have name := sound_optionalEntry_iff
    (show isLabelName "disk_name".toList = true from isLabelName_ofList (by decide +kernel))
    disk.name
  rw [attributes, sound_insertAll_iff, forallLasting_of_nodup]
  · rw [List.forall_mem_append, List.forall_mem_append, List.forall_mem_append,
      List.forall_mem_cons, List.forall_mem_singleton, fileSystem, mountPoint, name]
    constructor
    · rintro ⟨⟨⟨fileSystem, mountPoint⟩, _⟩, name⟩
      exact ⟨fileSystem, mountPoint, name⟩
    · rintro ⟨fileSystem, mountPoint, name⟩
      exact ⟨⟨⟨fileSystem, mountPoint⟩, type, removable⟩, name⟩
  · refine keys.sublist ?_
    simp only [List.map_append]
    have first := (sublist_optionalEntry "disk_file_system".toList disk.fileSystem).append
      (sublist_optionalEntry "disk_mount_point".toList disk.mountPoint)
    exact (first.append (List.Sublist.refl _)).append (sublist_optionalEntry _ _)

end Disk

/-- Only the last disk is in the map. -/
theorem getDisks_eq (disks : List Disk) :
    getDisks disks = disks.getLast?.toList.flatMap Disk.insertions := by
  rcases List.eq_nil_or_concat disks with rfl | ⟨before, last, rfl⟩
  · rfl
  · have replaced : ∀ entry ∈ before.flatMap Disk.insertions,
        ∃ later ∈ last.insertions, later.1 = entry.1 := by
      intro entry member
      obtain ⟨disk, _, inserted⟩ := List.mem_flatMap.mp member
      simp only [Disk.insertions, List.mem_cons, List.not_mem_nil, or_false] at inserted
      rcases inserted with rfl | rfl
      · exact ⟨_, List.mem_cons_self, rfl⟩
      · exact ⟨_, List.mem_cons_of_mem _ List.mem_cons_self, rfl⟩
    rw [List.concat_eq_append, List.getLast?_append, List.getLast?_singleton, Option.some_or,
      Option.toList_some, List.flatMap_singleton, getDisks, List.flatMap_append,
      List.flatMap_singleton, insertAll_append_of_replaced replaced]
    rfl

theorem forall_mem_getDisks {property : Family × (List (Text × Text) × Nat) → Prop}
    (disks : List Disk) :
    (∀ entry ∈ getDisks disks, property entry) ↔
      ∀ disk ∈ disks.getLast?, ∀ entry ∈ disk.insertions, property entry := by
  rw [getDisks_eq, List.forall_mem_flatMap]
  simp only [Option.mem_toList, Option.mem_def]

theorem headed_diskMetrics {disks : List Disk} {metric : Metric}
    (member : metric ∈ diskMetrics disks) : metric.Headed := by
  obtain ⟨entry, _, rfl⟩ := List.mem_map.mp member
  exact entry.1.headed_metric _ (numeric_text (isNumber_toText entry.2.2)).shape

theorem readable_diskMetrics_iff (disks : List Disk) :
    (∀ metric ∈ diskMetrics disks, metric.Readable) ↔ ∀ disk ∈ disks.getLast?, disk.Clean := by
  have readable : ∀ entry : Family × (List (Text × Text) × Nat),
      (entry.1.metric entry.2.1 (.text (toText entry.2.2))).Readable ↔
        ∀ label ∈ entry.2.1, Sound label := by
    intro entry
    refine Metric.readable_iff.trans (and_iff_left ?_)
    exact (numeric_text (isNumber_toText entry.2.2)).number
  rw [diskMetrics, List.forall_mem_map]
  simp only [readable]
  rw [forall_mem_getDisks]
  simp only [Disk.insertions, List.forall_mem_cons, Disk.sound_attributes_iff, List.not_mem_nil,
    false_implies, implies_true, and_true, and_self]

/-! ## Containers -/

namespace Container

/-- The key holds no character but those of label names and those that are escaped. -/
def EscapableKey (key : Text) : Prop := ∀ c ∈ key, isLabelChar c = true ∨ c ∈ escapeList

theorem isLabelChar_escaped_iff (escapes : List Char) (key : Text) :
    (∀ c ∈ escapes.foldl (fun key escaped => key.map fun c => if c = escaped then '_' else c) key,
      isLabelChar c = true) ↔ ∀ c ∈ key, isLabelChar c = true ∨ c ∈ escapes := by
  induction escapes generalizing key with
  | nil => simp
  | cons escaped others ih =>
      rw [List.foldl_cons, ih, List.forall_mem_map]
      apply forall₂_congr
      intro c _
      by_cases same : c = escaped
      · rw [if_pos same, same]
        exact iff_of_true (Or.inl (by decide)) (Or.inr List.mem_cons_self)
      · rw [if_neg same, List.mem_cons, or_iff_right same]

theorem isLabelName_labelKey_iff (key : Text) :
    isLabelName (labelKey key) = true ↔ EscapableKey key := by
  have start : isLabelName "container_label_".toList = true :=
    isLabelName_ofList (by decide +kernel)
  exact (isLabelName_append start _).trans (isLabelChar_escaped_iff escapeList key)

/-- What docker says of the container can be written: the names and the version have no
newline, the keys of the labels are escapable, and no newline is in the value of a label whose
name is not taken by a later one. -/
structure Clean (container : Container) (dockerVersion : Text) : Prop where
  names : ∀ name ∈ container.names, '\n' ∉ trim name
  version : '\n' ∉ dockerVersion
  keys : ∀ label ∈ container.labels.getD [], EscapableKey label.1
  values : ∀ label, Lasts container.labelInsertions label → '\n' ∉ label.2

theorem newline_not_mem_of_labels {container : Container}
    (values : ∀ label ∈ container.labels.getD [], '\n' ∉ label.2) :
    ∀ label, Lasts container.labelInsertions label → '\n' ∉ label.2 := by
  intro label lasting
  obtain ⟨own, isOwn, rfl⟩ := List.mem_map.mp (mem_of_lasts lasting)
  exact values own isOwn

theorem escapableKey_of_all {key : Text}
    (all : key.all (fun c => isLabelChar c || escapeList.contains c) = true) :
    EscapableKey key := by
  intro c member
  simpa using List.all_eq_true.mp all c member

theorem newline_not_mem_joinedNames_iff (container : Container) :
    '\n' ∉ container.joinedNames ↔ ∀ name ∈ container.names, '\n' ∉ trim name := by
  have differs : '\n' ≠ '/' := by decide
  simp [joinedNames, differs]

theorem sound_labelInsertions_iff (container : Container) :
    ForallLasting Sound container.labelInsertions ↔
      (∀ label ∈ container.labels.getD [], EscapableKey label.1) ∧
        ∀ label, Lasts container.labelInsertions label → '\n' ∉ label.2 := by
  constructor
  · intro sound
    refine ⟨?_, fun label lasting => (sound label lasting).2⟩
    intro label isLabel
    have inserted : (labelKey label.1, label.2) ∈ container.labelInsertions :=
      List.mem_map.mpr ⟨label, isLabel, rfl⟩
    obtain ⟨value, lasting⟩ := exists_lasts_of_mem inserted
    exact (isLabelName_labelKey_iff label.1).mp (sound _ lasting).1
  · rintro ⟨keys, values⟩ entry lasting
    obtain ⟨label, isLabel, rfl⟩ := List.mem_map.mp (mem_of_lasts lasting)
    exact ⟨(isLabelName_labelKey_iff label.1).mpr (keys label isLabel), values _ lasting⟩

/-- The name of a docker label is no other name. -/
theorem labelKey_ne {key : Text} {other : Text}
    (differs : other.take "container_label_".toList.length ≠ "container_label_".toList) :
    labelKey key ≠ other := by
  rintro rfl
  exact differs List.take_left

theorem sound_insertions_iff (container : Container) (dockerVersion : Text) :
    ForallLasting Sound (container.insertions dockerVersion) ↔ container.Clean dockerVersion := by
  have labels : ∀ other : Text,
      other.take "container_label_".toList.length ≠ "container_label_".toList →
        ∀ later ∈ container.labelInsertions, later.1 ≠ other := by
    intro other differs later member
    obtain ⟨label, _, rfl⟩ := List.mem_map.mp member
    exact labelKey_ne differs
  have freshVersion := labels "container_docker_version".toList (by decide +kernel)
  have freshNames : ∀ later ∈ ("container_docker_version".toList, dockerVersion) ::
      container.labelInsertions, later.1 ≠ "container_names".toList := by
    have differs : "container_docker_version".toList ≠ "container_names".toList := by
      decide +kernel
    exact List.forall_mem_cons.mpr
      ⟨differs, labels "container_names".toList (by decide +kernel)⟩
  have named : isLabelName "container_names".toList = true :=
    isLabelName_ofList (by decide +kernel)
  have versioned : isLabelName "container_docker_version".toList = true :=
    isLabelName_ofList (by decide +kernel)
  rw [insertions, forallLasting_cons freshNames, forallLasting_cons freshVersion,
    sound_labelInsertions_iff, Sound, Sound, newline_not_mem_joinedNames_iff]
  constructor
  · rintro ⟨⟨_, names⟩, ⟨_, version⟩, keys, values⟩
    exact ⟨names, version, keys, values⟩
  · rintro ⟨names, version, keys, values⟩
    exact ⟨⟨named, names⟩, ⟨versioned, version⟩, keys, values⟩

end Container

namespace Pod

/-- The names of the pod have no newline. -/
structure Clean (pod : Pod) : Prop where
  name : ∀ text ∈ pod.name, '\n' ∉ text
  podNamespace : ∀ text ∈ pod.podNamespace, '\n' ∉ text
  nodeName : ∀ text ∈ pod.nodeName, '\n' ∉ text

theorem sound_insertions_iff (pod : Pod) : ForallLasting Sound pod.insertions ↔ pod.Clean := by
  have keys : ["container_scheduler".toList, "kubernetes_pod_name".toList,
      "kubernetes_pod_namespace".toList, "kubernetes_node_name".toList].Nodup := by
    decide +kernel
  have scheduler : Sound ("container_scheduler".toList, "kubernetes".toList) :=
    ⟨isLabelName_ofList (by decide +kernel), not_mem_ofList (by decide +kernel)⟩
  have name := sound_optionalEntry_iff
    (show isLabelName "kubernetes_pod_name".toList = true from
      isLabelName_ofList (by decide +kernel)) pod.name
  have podNamespace := sound_optionalEntry_iff
    (show isLabelName "kubernetes_pod_namespace".toList = true from
      isLabelName_ofList (by decide +kernel)) pod.podNamespace
  have nodeName := sound_optionalEntry_iff
    (show isLabelName "kubernetes_node_name".toList = true from
      isLabelName_ofList (by decide +kernel)) pod.nodeName
  rw [insertions, forallLasting_of_nodup]
  · rw [List.forall_mem_append, List.forall_mem_append, List.forall_mem_cons, name, podNamespace,
      nodeName]
    constructor
    · rintro ⟨⟨⟨_, name⟩, podNamespace⟩, nodeName⟩
      exact ⟨name, podNamespace, nodeName⟩
    · rintro ⟨name, podNamespace, nodeName⟩
      exact ⟨⟨⟨scheduler, name⟩, podNamespace⟩, nodeName⟩
  · refine keys.sublist ?_
    simp only [List.map_append, List.map_cons]
    have first := (sublist_optionalEntry "kubernetes_pod_name".toList pod.name).cons_cons
      "container_scheduler".toList
    exact (first.append (sublist_optionalEntry _ pod.podNamespace)).append
      (sublist_optionalEntry _ pod.nodeName)

end Pod

/-! ## Cgroups -/

theorem mem_of_mem_splitOn {separator : Char} {text piece : Text} {c : Char}
    (isPiece : piece ∈ text.splitOn separator) (member : c ∈ piece) : c ∈ text := by
  induction text generalizing piece with
  | nil =>
      rw [List.splitOn_nil, List.mem_singleton] at isPiece
      rw [isPiece] at member
      exact member
  | cons first rest ih =>
      rw [List.splitOn_cons_eq_if_modifyHead] at isPiece
      split at isPiece
      · rcases List.mem_cons.mp isPiece with rfl | later
        · cases member
        · exact List.mem_cons_of_mem _ (ih later member)
      · obtain ⟨head, others, pieces⟩ :=
          List.exists_cons_of_ne_nil (List.splitOn_ne_nil separator rest)
        rw [pieces, List.modifyHead_cons] at isPiece
        rw [pieces] at ih
        rcases List.mem_cons.mp isPiece with rfl | later
        · rcases List.mem_cons.mp member with rfl | inHead
          · exact List.mem_cons_self
          · exact List.mem_cons_of_mem _ (ih List.mem_cons_self inHead)
        · exact List.mem_cons_of_mem _ (ih (List.mem_cons_of_mem _ later) member)

theorem mem_of_mem_last {separator : Char} {text : Text} {c : Char}
    (member : c ∈ (text.splitOn separator).getLastD []) : c ∈ text := by
  rw [List.getLastD_eq_getLast?,
    List.getLast?_eq_some_getLast (List.splitOn_ne_nil separator text)] at member
  exact mem_of_mem_splitOn (List.getLast_mem _) member

theorem mem_of_mem_withoutStart {start text : Text} {c : Char}
    (member : c ∈ withoutStart start text) : c ∈ text := by
  unfold withoutStart at member
  split at member
  · exact List.mem_of_mem_drop member
  · exact member

theorem mem_of_mem_withoutEnd {ending text : Text} {c : Char}
    (member : c ∈ withoutEnd ending text) : c ∈ text := by
  unfold withoutEnd at member
  split at member
  · exact List.mem_of_mem_take member
  · exact member

/-- The identifier of a pod is cut out of the path. -/
theorem mem_of_mem_extractPodId {pathname : Text} {c : Char}
    (member : c ∈ extractPodIdFromCgroupPath pathname) : c ∈ pathname := by
  unfold extractPodIdFromCgroupPath at member
  simp only at member
  split at member
  · exact mem_of_mem_last
      (mem_of_mem_withoutStart (mem_of_mem_withoutEnd (mem_of_mem_last member)))
  · exact mem_of_mem_last (mem_of_mem_withoutStart (mem_of_mem_withoutEnd member))

theorem isAlphanum_of_mem_containerId {pathname containerId : Text}
    (captured : regexCleanContainerId pathname = some containerId) :
    ∀ c ∈ containerId, c.isAlphanum = true := by
  induction pathname with
  | nil => cases captured
  | cons first rest ih =>
      rw [regexCleanContainerId] at captured
      split at captured
      · cases captured
        exact fun c member => List.mem_takeWhile_imp member
      · exact ih captured

/-- The loop over the cgroups ends at this one. -/
def Cgroup.decides (cg : Cgroup) : Bool :=
  if regexCgroupDocker cg.pathname then (regexCleanContainerId cg.pathname).isSome
  else regexCgroupContainerd cg.pathname || regexCgroupKubernetes cg.pathname

namespace Readings

/-- What is known of the container or the pod of the cgroup can be written. -/
def CleanCgroup (readings : Readings) (cg : Cgroup) : Prop :=
  if regexCgroupDocker cg.pathname then
    ∀ containerId ∈ regexCleanContainerId cg.pathname,
      ∀ container ∈ readings.containers.find? (·.id = containerId),
        container.Clean readings.dockerVersion
  else
    ∀ pod ∈ readings.pods.find? (·.runs (extractPodIdFromCgroupPath cg.pathname)), pod.Clean

theorem sound_containerId {containerId : Text} (single : '\n' ∉ containerId) :
    Sound ("container_id".toList, containerId) :=
  ⟨isLabelName_ofList (by decide +kernel), single⟩

theorem sound_dockerInsertions_iff (readings : Readings) {containerId : Text}
    (single : '\n' ∉ containerId) :
    ForallLasting Sound (readings.dockerInsertions containerId) ↔
      ∀ container ∈ readings.containers.find? (·.id = containerId),
        container.Clean readings.dockerVersion := by
  rw [dockerInsertions, forallLasting_cons_of_holds (sound_containerId single)]
  cases readings.containers.find? (·.id = containerId) with
  | none => exact iff_of_true forallLasting_nil (by simp)
  | some container => simpa using container.sound_insertions_iff readings.dockerVersion

theorem sound_podInsertions_iff (readings : Readings) {containerId : Text}
    (single : '\n' ∉ containerId) :
    ForallLasting Sound (readings.podInsertions containerId) ↔
      ∀ pod ∈ readings.pods.find? (·.runs containerId), pod.Clean := by
  rw [podInsertions, forallLasting_cons_of_holds (sound_containerId single)]
  cases readings.pods.find? (·.runs containerId) with
  | none => exact iff_of_true forallLasting_nil (by simp)
  | some pod => simpa using pod.sound_insertions_iff

/-- The cgroup at which the loop ends says what the labels are. -/
theorem sound_describeCgroups_iff (readings : Readings) (cgroups : List Cgroup) :
    ForallLasting Sound (readings.describeCgroups cgroups) ↔
      ∀ cg ∈ cgroups.find? Cgroup.decides, readings.CleanCgroup cg := by
  have scheduler : Sound ("container_scheduler".toList, "docker".toList) :=
    ⟨isLabelName_ofList (by decide +kernel), not_mem_ofList (by decide +kernel)⟩
  have runtime : Sound ("container_runtime".toList, "containerd".toList) :=
    ⟨isLabelName_ofList (by decide +kernel), not_mem_ofList (by decide +kernel)⟩
  induction cgroups with
  | nil => exact iff_of_true forallLasting_nil (by simp)
  | cons cg rest ih =>
      have podSingle : '\n' ∉ extractPodIdFromCgroupPath cg.pathname :=
        fun member => cg.single (mem_of_mem_extractPodId member)
      have pods := readings.sound_podInsertions_iff podSingle
      rw [describeCgroups, List.find?_cons]
      cases docker : regexCgroupDocker cg.pathname with
      | true =>
          rw [if_pos rfl, forallLasting_cons_of_holds scheduler]
          cases captured : regexCleanContainerId cg.pathname with
          | none => simpa [Cgroup.decides, docker, captured] using ih
          | some containerId =>
              have single : '\n' ∉ containerId := fun member =>
                absurd (isAlphanum_of_mem_containerId captured _ member) (by decide)
              have containers := readings.sound_dockerInsertions_iff single
              simpa [Cgroup.decides, CleanCgroup, docker, captured] using containers
      | false =>
          rw [if_neg (by decide)]
          cases containerd : regexCgroupContainerd cg.pathname with
          | true =>
              rw [if_pos rfl, forallLasting_cons_of_holds runtime]
              simpa [Cgroup.decides, CleanCgroup, docker, containerd] using pods
          | false =>
              rw [if_neg (by decide)]
              cases kubernetes : regexCgroupKubernetes cg.pathname with
              | true =>
                  rw [if_pos rfl]
                  simpa [Cgroup.decides, CleanCgroup, docker, containerd, kubernetes] using pods
              | false =>
                  rw [if_neg (by decide)]
                  simpa [Cgroup.decides, docker, containerd, kubernetes] using ih

end Readings

end ScaphandreFormal.Exporters
