import ScaphandreFormal.Exporters.JsonUsage
import ScaphandreFormal.Sensors.PowercapContent
import Mathlib.Data.List.Permutation

/-!
# The sockets and the disks of the JSON report

The metrics are popped in the reverse of the order in which they are pushed.  The first metric
of a socket's power that is found is that of the last socket, and it is the only one that is
looked at; the metrics of the disks are those that are left behind it.  Of the disks, the map
of `get_disks` keeps the last one.
-/

namespace ScaphandreFormal.Exporters

open Foundation

/-! ## The parts of a scrape -/

inductive Part where
  | disks
  | sockets
  | others
  deriving DecidableEq

def Family.part : Family → Part
  | .hostDiskTotalBytes | .hostDiskAvailableBytes => .disks
  | .socketEnergyMicrojoules | .socketPowerMicrowatts | .socketIdlePowerMicrowatts
  | .socketActivationPowerMicrowatts | .socketBackgroundPowerMicrowatts
  | .socketRaplMmioEnergyMicrojoules _ | .domainEnergyMicrojoules | .domainPowerMicrowatts
  | .domainRaplMmioEnergyMicrojoules _ _ => .sockets
  | _ => .others

/-- The part of a scrape to which a name belongs. -/
def partOf (name : Text) : Part :=
  if "scaph_host_disk_".toList <+: name then .disks
  else if "scaph_socket_".toList <+: name ∨ "scaph_domain_".toList <+: name then .sockets
  else .others

theorem partOf_ofList {chars : Text} {part : Part} (isPart : partOf chars = part) :
    partOf (String.ofList chars).toList = part := by
  rwa [String.toList_ofList]

theorem partOf_name (family : Family) : partOf family.name = family.part := by
  cases family with
  | socketRaplMmioEnergyMicrojoules _ =>
      exact show partOf _ = Part.sockets from partOf_ofList (by decide +kernel)
  | domainRaplMmioEnergyMicrojoules _ _ =>
      exact show partOf _ = Part.sockets from partOf_ofList (by decide +kernel)
  | _ => exact partOf_ofList (by decide +kernel)

/-- The metric is neither one of a disk nor one of a socket. -/
def OwnMetric.Elsewhere (own : OwnMetric) : Prop := own.family.part = .others

theorem forall_mem_optional {property : OwnMetric → Prop} {Value : Type} {value : Option Value}
    {own : Value → OwnMetric} (each : ∀ found, property (own found)) :
    ∀ metric ∈ (value.map own).toList, property metric := by
  intro metric member
  obtain ⟨found, _, rfl⟩ := Option.map_eq_some_iff.mp (Option.mem_toList.mp member)
  exact each found

theorem elsewhere_perCoreMetrics {family : Family} (elsewhere : family.part = .others)
    (values : List Reading) : ∀ metric ∈ perCoreMetrics family values, metric.Elsewhere := by
  intro metric member
  obtain ⟨id, _, rfl⟩ := List.mem_mapIdx.mp member
  exact elsewhere

theorem SocketReadings.elsewhere_genSelfMetrics (socket : SocketReadings) :
    ∀ metric ∈ socket.genSelfMetrics, metric.Elsewhere := by
  refine List.forall_mem_cons.mpr ⟨rfl, List.forall_mem_cons.mpr ⟨rfl, ?_⟩⟩
  exact List.forall_mem_map.mpr fun domain _ => rfl

namespace Readings

theorem elsewhere_genSelfMetrics (readings : Readings) :
    ∀ metric ∈ readings.genSelfMetrics, metric.Elsewhere := by
  simp only [genSelfMetrics, List.forall_mem_append, List.forall_mem_cons,
    List.forall_mem_flatMap]
  refine ⟨⟨⟨⟨⟨rfl, ?_⟩, ?_⟩, ?_⟩, rfl, rfl, rfl, List.forall_mem_nil _⟩, ?_⟩
  · exact forall_mem_optional fun _ => rfl
  · exact forall_mem_optional fun _ => rfl
  · exact forall_mem_optional fun _ => rfl
  · exact fun socket _ => socket.elsewhere_genSelfMetrics

theorem elsewhere_genHostMetricsBeforeDisks (readings : Readings) :
    ∀ metric ∈ readings.genHostMetricsBeforeDisks, metric.Elsewhere := by
  rw [genHostMetricsBeforeDisks, List.forall_mem_append, List.forall_mem_append,
    List.forall_mem_singleton]
  refine ⟨⟨?_, ?_⟩, rfl⟩
  · cases readings.records.getLast? with
    | none => exact List.forall_mem_nil _
    | some record =>
        simp only [List.forall_mem_append, List.forall_mem_cons]
        refine ⟨⟨⟨⟨⟨⟨⟨rfl, ?_⟩, ?_⟩, ?_⟩, ?_⟩, ?_⟩, ?_⟩, ?_⟩
        · exact forall_mem_optional fun _ => rfl
        · exact forall_mem_optional fun _ => rfl
        · exact forall_mem_optional fun _ => rfl
        · exact forall_mem_optional fun _ => rfl
        · exact elsewhere_perCoreMetrics rfl _
        · exact elsewhere_perCoreMetrics rfl _
        · exact elsewhere_perCoreMetrics rfl _
  · cases readings.loadAvg with
    | none => exact List.forall_mem_nil _
    | some load => simp only [List.forall_mem_cons]; exact ⟨rfl, rfl, rfl, List.forall_mem_nil _⟩

theorem elsewhere_genHostMetricsAfterDisks (readings : Readings) :
    ∀ metric ∈ readings.genHostMetricsAfterDisks, metric.Elsewhere := by
  simp only [genHostMetricsAfterDisks, List.forall_mem_cons]
  exact ⟨rfl, rfl, rfl, rfl, rfl, List.forall_mem_nil _⟩

theorem elsewhere_genSystemMetrics (readings : Readings) :
    ∀ metric ∈ readings.genSystemMetrics, metric.Elsewhere := by
  simp only [genSystemMetrics, List.forall_mem_append]
  refine ⟨⟨⟨?_, ?_⟩, ?_⟩, ?_⟩
  · exact forall_mem_optional fun _ => rfl
  · exact forall_mem_optional fun _ => rfl
  · exact forall_mem_optional fun _ => rfl
  · exact forall_mem_optional fun _ => rfl

end Readings

/-! ## The metrics of a socket -/

/-- The power under which a domain has a metric. -/
def DomainReadings.powerReading (domain : DomainReadings) : Option Reading :=
  domain.records.getLast?.bind fun _ => domain.power

namespace SocketReadings

variable (socket : SocketReadings)

/-- The power under which a socket has a metric. -/
def powerReading : Option Reading := socket.records.getLast?.bind fun _ => socket.power

def idleReading : Option Reading := socket.records.getLast?.bind fun _ => socket.idlePower

def powerMetric (reading : Reading) : OwnMetric :=
  ⟨.socketPowerMicrowatts, [.socketId socket.id], reading⟩

def idleMetric (reading : Reading) : OwnMetric :=
  ⟨.socketIdlePowerMicrowatts, [.socketId socket.id], reading⟩

/-- The domains that have a metric of their power, with it. -/
def poweredDomains : List (DomainReadings × Reading) :=
  socket.domains.filterMap fun domain => domain.powerReading.map (domain, ·)

def domainMetric (own : DomainReadings × Reading) : OwnMetric :=
  ⟨.domainPowerMicrowatts,
    [.domainName own.1.name, .domainId own.1.id, .socketId socket.id], own.2⟩

/-- The metrics of the socket under a name. -/
def metricsUnder (family : Family) : List OwnMetric :=
  socket.genSocketMetrics.filter fun own => own.family = family

theorem filter_own (family wanted : Family) (labels : List OwnLabel) (value : Option Reading) :
    ((value.map fun reading => (⟨family, labels, reading⟩ : OwnMetric)).toList.filter
        fun own => own.family = wanted) =
      if family = wanted then
        (value.map fun reading => (⟨family, labels, reading⟩ : OwnMetric)).toList else [] := by
  cases value with
  | none => simp
  | some reading => by_cases same : family = wanted <;> simp [same]

theorem filter_genDomainMetrics_power (domain : DomainReadings) :
    ((socket.genDomainMetrics domain).filter fun own => own.family = .domainPowerMicrowatts) =
      (domain.powerReading.map fun reading => socket.domainMetric (domain, reading)).toList := by
  rw [genDomainMetrics, DomainReadings.powerReading]
  cases domain.records.getLast? with
  | none => rfl
  | some record =>
      simp [filter_own]
      rfl

theorem filter_genDomainMetrics_eq_nil {wanted : Family}
    (noDomain : wanted ≠ .domainEnergyMicrojoules ∧ wanted ≠ .domainPowerMicrowatts ∧
      ∀ name id, wanted ≠ .domainRaplMmioEnergyMicrojoules name id) :
    ((socket.domains.flatMap socket.genDomainMetrics).filter fun own => own.family = wanted) =
      [] := by
  rw [List.filter_eq_nil_iff]
  intro own member same
  obtain ⟨domain, _, isOwn⟩ := List.mem_flatMap.mp member
  rw [← of_decide_eq_true same] at noDomain
  rw [genDomainMetrics] at isOwn
  cases recorded : domain.records.getLast? with
  | none => simp [recorded] at isOwn
  | some record =>
      simp only [recorded, List.mem_append, List.mem_cons, Option.mem_toList,
        Option.map_eq_some_iff] at isOwn
      rcases isOwn with (rfl | ⟨_, _, rfl⟩) | ⟨_, _, rfl⟩
      · exact noDomain.1 rfl
      · exact noDomain.2.1 rfl
      · exact noDomain.2.2 _ _ rfl

theorem metricsUnder_power : socket.metricsUnder .socketPowerMicrowatts =
    (socket.powerReading.map socket.powerMetric).toList := by
  rw [metricsUnder, genSocketMetrics, List.filter_append, List.filter_append,
    filter_genDomainMetrics_eq_nil socket (by simp), powerReading]
  cases socket.records.getLast? with
  | none => simp [filter_own]
  | some record =>
      simp [filter_own]
      rfl

theorem metricsUnder_idle : socket.metricsUnder .socketIdlePowerMicrowatts =
    (socket.idleReading.map socket.idleMetric).toList := by
  rw [metricsUnder, genSocketMetrics, List.filter_append, List.filter_append,
    filter_genDomainMetrics_eq_nil socket (by simp), idleReading]
  cases socket.records.getLast? with
  | none => simp [filter_own]
  | some record =>
      simp [filter_own]
      rfl

theorem metricsUnder_domains : socket.metricsUnder .domainPowerMicrowatts =
    socket.poweredDomains.map socket.domainMetric := by
  have domains : (socket.domains.flatMap socket.genDomainMetrics).filter
      (fun own => own.family = .domainPowerMicrowatts) =
        socket.poweredDomains.map socket.domainMetric := by
    rw [List.filter_flatMap, poweredDomains, List.map_filterMap, List.filterMap_eq_flatMap_toList]
    refine List.flatMap_congr fun domain _ => ?_
    rw [filter_genDomainMetrics_power, Option.map_map]
    rfl
  rw [metricsUnder, genSocketMetrics, List.filter_append, domains]
  refine List.append_left_eq_self.mpr ?_
  cases socket.records.getLast? with
  | none => simp [filter_own]
  | some record => simp [filter_own]

/-- The metric is one of the socket and labelled with it. -/
structure Owns (own : OwnMetric) : Prop where
  part : own.family.part = .sockets
  labels : ∃ before after, own.labels = before ++ .socketId socket.id :: after ∧
    ∀ label ∈ after, label.entry.1 ≠ "socket_id".toList

theorem owns_genDomainMetrics (domain : DomainReadings) :
    ∀ own ∈ socket.genDomainMetrics domain, socket.Owns own := by
  let attributes : List OwnLabel :=
    [.domainName domain.name, .domainId domain.id, .socketId socket.id]
  have last : ∀ {family reading}, family.part = .sockets →
      socket.Owns ⟨family, attributes, reading⟩ := by
    intro family reading isPart
    exact ⟨isPart, attributes.take 2, [], rfl, List.forall_mem_nil _⟩
  rw [genDomainMetrics]
  cases domain.records.getLast? with
  | none => exact List.forall_mem_nil _
  | some record =>
      simp only [List.forall_mem_append, List.forall_mem_cons]
      refine ⟨⟨last rfl, forall_mem_optional fun _ => last rfl⟩, forall_mem_optional fun _ => ?_⟩
      have source : "value_source".toList ≠ "socket_id".toList := by decide +kernel
      exact ⟨rfl, attributes.take 2, [.valueSource .powercapRaplMmio], rfl,
        List.forall_mem_singleton.mpr source⟩

theorem owns_genSocketMetrics : ∀ own ∈ socket.genSocketMetrics, socket.Owns own := by
  have only : ∀ {family reading}, family.part = .sockets →
      socket.Owns ⟨family, [.socketId socket.id], reading⟩ := by
    intro family reading isPart
    exact ⟨isPart, [], [], rfl, List.forall_mem_nil _⟩
  simp only [genSocketMetrics, List.forall_mem_append, List.forall_mem_flatMap]
  refine ⟨⟨?_, forall_mem_optional fun _ => only rfl⟩,
    fun domain _ => socket.owns_genDomainMetrics domain⟩
  cases socket.records.getLast? with
  | none => exact List.forall_mem_nil _
  | some record =>
      simp only [List.forall_mem_append, List.forall_mem_cons]
      refine ⟨⟨⟨⟨only rfl, ?_⟩, ?_⟩, ?_⟩, ?_⟩
      · exact forall_mem_optional fun _ => only rfl
      · exact forall_mem_optional fun _ => only rfl
      · exact forall_mem_optional fun _ => only rfl
      · exact forall_mem_optional fun _ => only rfl

end SocketReadings

namespace Json

/-! ## The names of the sockets -/

/-- The names that are sought for a socket. -/
def soughtFamilies : List Family :=
  [.socketPowerMicrowatts, .socketIdlePowerMicrowatts, .domainPowerMicrowatts]

/-- The other names in the part of the sockets. -/
def otherNames : List Text :=
  [Family.socketEnergyMicrojoules.name, Family.socketActivationPowerMicrowatts.name,
    Family.socketBackgroundPowerMicrowatts.name,
    (Family.socketRaplMmioEnergyMicrojoules 0).name, Family.domainEnergyMicrojoules.name,
    (Family.domainRaplMmioEnergyMicrojoules .cpu 0).name]

theorem nodup_socket_names : (soughtFamilies.map Family.name ++ otherNames).Nodup := by
  decide +kernel

theorem mem_of_part_sockets {family : Family} (isPart : family.part = .sockets) :
    family ∈ soughtFamilies ∨ family.name ∈ otherNames := by
  cases family with
  | socketPowerMicrowatts => exact Or.inl (by decide)
  | socketIdlePowerMicrowatts => exact Or.inl (by decide)
  | domainPowerMicrowatts => exact Or.inl (by decide)
  | socketEnergyMicrojoules => exact Or.inr List.mem_cons_self
  | socketActivationPowerMicrowatts => exact Or.inr (.tail _ List.mem_cons_self)
  | socketBackgroundPowerMicrowatts => exact Or.inr (.tail _ (.tail _ List.mem_cons_self))
  | socketRaplMmioEnergyMicrojoules _ =>
      exact Or.inr (.tail _ (.tail _ (.tail _ List.mem_cons_self)))
  | domainEnergyMicrojoules =>
      exact Or.inr (.tail _ (.tail _ (.tail _ (.tail _ List.mem_cons_self))))
  | domainRaplMmioEnergyMicrojoules _ _ =>
      exact Or.inr (.tail _ (.tail _ (.tail _ (.tail _ (.tail _ List.mem_cons_self)))))
  | _ => cases isPart

theorem part_of_sought {family : Family} (sought : family ∈ soughtFamilies) :
    family.part = .sockets := by
  have all : ∀ family ∈ soughtFamilies, family.part = .sockets := by decide
  exact all family sought

/-- A name that is sought is that of one family. -/
theorem family_eq_of_name {family wanted : Family} (sought : wanted ∈ soughtFamilies)
    (same : family.name = wanted.name) : family = wanted := by
  obtain ⟨distinct, _, apart⟩ := List.nodup_append.mp nodup_socket_names
  have isPart : family.part = .sockets := by
    rw [← partOf_name, same, partOf_name, part_of_sought sought]
  rcases mem_of_part_sockets isPart with known | other
  · exact List.inj_on_of_nodup_map distinct known sought same
  · exact absurd same.symm (apart _ (List.mem_map_of_mem sought) _ other)

theorem part_diskMetrics (disks : List Exporters.Disk) :
    ∀ metric ∈ diskMetrics disks, partOf metric.name = .disks := by
  rw [diskMetrics, List.forall_mem_map, forall_mem_getDisks]
  intro disk _
  simp only [Disk.insertions, List.forall_mem_cons]
  exact ⟨partOf_name .hostDiskTotalBytes, partOf_name .hostDiskAvailableBytes,
    List.forall_mem_nil _⟩

/-! ## Searches in the metrics of a scrape -/

/-- The metrics of a scrape as they are popped: those of the disks and those of each process
stand in the order of their map. -/
def Popped (readings : Readings) (metrics : List Metric) : Prop :=
  ∃ disks : List Metric, ∃ processes : List (List Metric),
    disks.Perm (diskMetrics readings.disks) ∧
    List.Forall₂ (fun process own => own.Perm (processMetrics readings process))
      readings.processes processes ∧
    metrics = (readings.genSelfMetrics.map OwnMetric.metric ++
      readings.genHostMetricsBeforeDisks.map OwnMetric.metric ++ disks ++
      readings.genHostMetricsAfterDisks.map OwnMetric.metric ++
      readings.genSocketMetrics.map OwnMetric.metric ++
      readings.genSystemMetrics.map OwnMetric.metric ++ processes.flatten).reverse

/-- Around the metrics of the sockets and those of the disks stand others. -/
theorem Popped.parts {readings : Readings} {metrics : List Metric}
    (popped : Popped readings metrics) : ∃ later disks between earlier : List Metric,
      metrics = later ++ ((readings.genSocketMetrics.map OwnMetric.metric).reverse ++
        (between ++ (disks ++ earlier))) ∧
      disks.Perm (diskMetrics readings.disks) ∧
      (∀ metric ∈ disks, partOf metric.name = .disks) ∧
      (∀ metric ∈ later, partOf metric.name = .others) ∧
      (∀ metric ∈ between, partOf metric.name = .others) ∧
      ∀ metric ∈ earlier, partOf metric.name = .others := by
  obtain ⟨disks, processes, isDisks, isProcesses, rfl⟩ := popped
  have own : ∀ {owns : List OwnMetric}, (∀ own ∈ owns, own.Elsewhere) →
      ∀ metric ∈ owns.map OwnMetric.metric, partOf metric.name = .others := by
    intro owns elsewhere metric member
    obtain ⟨own, isOwn, rfl⟩ := List.mem_map.mp member
    exact (partOf_name _).trans (elsewhere own isOwn)
  have ofProcesses : ∀ metric ∈ processes.flatten, partOf metric.name = .others := by
    intro metric member
    obtain ⟨block, isBlock, isMetric⟩ := List.mem_flatten.mp member
    obtain ⟨process, _, same⟩ := (exists_mem_of_forall₂ isProcesses).2 block isBlock
    obtain ⟨entry, isEntry, rfl⟩ := List.mem_map.mp (same.mem_iff.mp isMetric)
    have family := (families_sublist process).subset (List.mem_map_of_mem isEntry)
    have others : ∀ family ∈ usageFamilies ++ powerFamilies, family.part = .others := by decide
    exact (partOf_name _).trans (others _ family)
  refine ⟨processes.flatten.reverse ++ (readings.genSystemMetrics.map OwnMetric.metric).reverse,
    disks.reverse, (readings.genHostMetricsAfterDisks.map OwnMetric.metric).reverse,
    (readings.genHostMetricsBeforeDisks.map OwnMetric.metric).reverse ++
      (readings.genSelfMetrics.map OwnMetric.metric).reverse, ?_,
    (List.reverse_perm _).trans isDisks, ?_, ?_, ?_, ?_⟩
  · simp only [List.reverse_append, List.append_assoc]
  · intro metric member
    exact part_diskMetrics _ metric (isDisks.mem_iff.mp (List.mem_reverse.mp member))
  · simp only [List.forall_mem_append, List.mem_reverse]
    exact ⟨ofProcesses, own readings.elsewhere_genSystemMetrics⟩
  · simp only [List.mem_reverse]
    exact own readings.elsewhere_genHostMetricsAfterDisks
  · simp only [List.forall_mem_append, List.mem_reverse]
    exact ⟨own readings.elsewhere_genHostMetricsBeforeDisks,
      own readings.elsewhere_genSelfMetrics⟩

section Popped

variable {readings : Readings} {metrics : List Metric} {wanted : Family}

theorem part_of_named {metric : Metric} (sought : wanted ∈ soughtFamilies)
    (isNamed : named wanted metric = true) : partOf metric.name = .sockets := by
  rw [of_decide_eq_true isNamed, partOf_name, part_of_sought sought]

/-- What is chosen from one part is not found in another. -/
theorem filter_of_other_part {chosen : Metric → Bool} {part other : Part} {others : List Metric}
    (ofPart : ∀ metric, chosen metric = true → partOf metric.name = part)
    (isOther : ∀ metric ∈ others, partOf metric.name = other) (apart : other ≠ part) :
    others.filter chosen = [] := by
  rw [List.filter_eq_nil_iff]
  intro metric member isChosen
  exact apart ((isOther metric member).symm.trans (ofPart metric isChosen))

/-- What is sought for the sockets is found among their metrics. -/
theorem Popped.filter_eq (popped : Popped readings metrics) {chosen : Metric → Bool}
    (ofSockets : ∀ metric, chosen metric = true → partOf metric.name = .sockets) :
    metrics.filter chosen =
      ((readings.genSocketMetrics.map OwnMetric.metric).filter chosen).reverse := by
  obtain ⟨later, disks, between, earlier, rfl, _, ofDisks, ofLater, ofBetween, ofEarlier⟩ :=
    popped.parts
  rw [List.filter_append, List.filter_append, List.filter_append, List.filter_append,
    filter_of_other_part ofSockets ofLater nofun, filter_of_other_part ofSockets ofBetween nofun,
    filter_of_other_part ofSockets ofDisks nofun, filter_of_other_part ofSockets ofEarlier nofun,
    List.nil_append, List.nil_append, List.nil_append, List.append_nil, List.filter_reverse]

theorem named_metric_iff (sought : wanted ∈ soughtFamilies) (own : OwnMetric) :
    named wanted own.metric = decide (own.family = wanted) :=
  decide_eq_decide.mpr ⟨family_eq_of_name sought, fun same => congrArg Family.name same⟩

theorem filter_named (sought : wanted ∈ soughtFamilies) (socket : SocketReadings) :
    (socket.genSocketMetrics.map OwnMetric.metric).filter (named wanted) =
      (socket.metricsUnder wanted).map OwnMetric.metric := by
  rw [List.filter_map, SocketReadings.metricsUnder]
  exact congrArg _ (List.filter_congr fun own _ => named_metric_iff sought own)

theorem getAttribute_eq {own : OwnMetric} {before after : List OwnLabel} {label : OwnLabel}
    (labels : own.labels = before ++ label :: after)
    (fresh : ∀ other ∈ after, other.entry.1 ≠ label.entry.1) :
    getAttribute own.metric label.entry.1 = some label.entry.2 := by
  refine lookup_insertAll.mpr ⟨before.map OwnLabel.entry, after.map OwnLabel.entry, ?_, ?_⟩
  · rw [labels, List.map_append, List.map_cons]
  · exact List.forall_mem_map.mpr fresh

/-- A metric of a socket is taken for the socket of the identifier. -/
theorem hasSocketId_metric {socket : SocketReadings} (fits : socket.id < 2 ^ 16) {own : OwnMetric}
    (owned : socket.Owns own) (id : Nat) :
    hasSocketId id own.metric = decide (socket.id = id) := by
  obtain ⟨before, after, labels, fresh⟩ := owned.labels
  have found : getAttribute own.metric "socket_id".toList = some (toText socket.id) :=
    getAttribute_eq labels fresh
  rw [hasSocketId, found, Option.bind_some, parseU16_toText fits]
  exact decide_eq_decide.mpr Option.some_inj

/-- The metrics of a socket under a name that is sought. -/
theorem Popped.filter_socket (popped : Popped readings metrics)
    (fits : ∀ socket ∈ readings.sockets, socket.id < 2 ^ 16)
    (distinct : (readings.sockets.map SocketReadings.id).Nodup)
    (sought : wanted ∈ soughtFamilies) {socket : SocketReadings}
    (member : socket ∈ readings.sockets) :
    (metrics.filter fun metric => named wanted metric && hasSocketId socket.id metric) =
      ((socket.metricsUnder wanted).map OwnMetric.metric).reverse := by
  rw [popped.filter_eq fun metric isChosen =>
    part_of_named sought (Bool.and_eq_true_iff.mp isChosen).1, Readings.genSocketMetrics,
    List.map_flatMap, List.filter_flatMap]
  have own : ∀ other ∈ readings.sockets,
      ((other.genSocketMetrics.map OwnMetric.metric).filter fun metric =>
        named wanted metric && hasSocketId socket.id metric) =
      if other.id = socket.id then (other.metricsUnder wanted).map OwnMetric.metric else [] := by
    intro other isOther
    have chosen : ∀ metric ∈ other.genSocketMetrics.map OwnMetric.metric,
        (named wanted metric && hasSocketId socket.id metric) =
          (decide (other.id = socket.id) && named wanted metric) := by
      refine List.forall_mem_map.mpr fun own isOwn => ?_
      rw [hasSocketId_metric (fits other isOther) (other.owns_genSocketMetrics own isOwn),
        Bool.and_comm]
    rw [List.filter_congr chosen]
    by_cases same : other.id = socket.id
    · rw [if_pos same, ← filter_named sought other]
      simp only [same, decide_true, Bool.true_and]
    · rw [if_neg same]
      simp only [same, decide_false, Bool.false_and, List.filter_false]
  rw [List.flatMap_congr own]
  exact congrArg _ (flatMap_of_key _ distinct member)

/-! ## The socket that is found -/

/-- The sockets that have a metric of their power, with it. -/
def poweredSockets (readings : Readings) : List (SocketReadings × Reading) :=
  readings.sockets.filterMap fun socket => socket.powerReading.map (socket, ·)

theorem mem_poweredSockets {socket : SocketReadings} {reading : Reading} :
    (socket, reading) ∈ poweredSockets readings ↔
      socket ∈ readings.sockets ∧ socket.powerReading = some reading := by
  simp [poweredSockets]

def metricOf (powered : SocketReadings × Reading) : Metric :=
  (powered.1.powerMetric powered.2).metric

theorem Popped.filter_power (popped : Popped readings metrics) :
    metrics.filter (named .socketPowerMicrowatts) =
      ((poweredSockets readings).map metricOf).reverse := by
  have sought : Family.socketPowerMicrowatts ∈ soughtFamilies := List.mem_cons_self
  rw [popped.filter_eq fun metric => part_of_named sought, Readings.genSocketMetrics,
    List.map_flatMap, List.filter_flatMap, poweredSockets, List.map_filterMap,
    List.filterMap_eq_flatMap_toList]
  refine congrArg _ (List.flatMap_congr fun socket _ => ?_)
  rw [filter_named sought, socket.metricsUnder_power]
  cases socket.powerReading with
  | none => rfl
  | some reading => rfl

theorem Popped.seek_of_none (popped : Popped readings metrics)
    (unpowered : poweredSockets readings = []) :
    seek (named .socketPowerMicrowatts) metrics = (none, []) := by
  have none : metrics.filter (named .socketPowerMicrowatts) = [] := by
    rw [popped.filter_power, unpowered]
    rfl
  refine seek_of_absent fun metric member => ?_
  exact Bool.eq_false_iff.mpr (List.filter_eq_nil_iff.mp none metric member)

theorem isDiskMetric_eq (metric : Metric) :
    isDiskMetric metric = decide (partOf metric.name = .disks) := by
  rw [isDiskMetric, partOf]
  refine decide_eq_decide.mpr ⟨fun starts => if_pos starts, fun isDisk => ?_⟩
  split at isDisk
  · assumption
  · split at isDisk <;> cases isDisk

/-- The metric of the last socket is found, and the metrics of the disks are behind it. -/
theorem Popped.seek_of_last (popped : Popped readings metrics) {last : SocketReadings × Reading}
    (isLast : (poweredSockets readings).getLast? = some last) :
    ∃ rest, seek (named .socketPowerMicrowatts) metrics = (some (metricOf last), rest) ∧
      (rest.filter isDiskMetric).Perm (diskMetrics readings.disks) := by
  have sought : Family.socketPowerMicrowatts ∈ soughtFamilies := List.mem_cons_self
  have found : (readings.genSocketMetrics.map OwnMetric.metric).reverse.find?
      (named .socketPowerMicrowatts) = some (metricOf last) := by
    rw [← List.head?_filter, List.filter_reverse,
      ← popped.filter_eq fun metric => part_of_named sought, popped.filter_power,
      List.head?_reverse, List.getLast?_map, isLast]
    rfl
  obtain ⟨isNamed, before, behind, whole, absent⟩ := List.find?_eq_some_iff_append.mp found
  obtain ⟨later, disks, between, earlier, rfl, isDisks, ofDisks, ofLater, ofBetween, ofEarlier⟩ :=
    popped.parts
  have ofBehind : ∀ metric ∈ behind, partOf metric.name = .sockets := by
    intro metric member
    have inBlock : metric ∈ (readings.genSocketMetrics.map OwnMetric.metric).reverse := by
      rw [whole]
      exact List.mem_append_right _ (List.mem_cons_of_mem _ member)
    obtain ⟨own, isOwn, rfl⟩ := List.mem_map.mp (List.mem_reverse.mp inBlock)
    obtain ⟨socket, _, ofSocket⟩ := List.mem_flatMap.mp isOwn
    exact (partOf_name _).trans (socket.owns_genSocketMetrics own ofSocket).part
  have noneBefore : ∀ metric ∈ later ++ before, named .socketPowerMicrowatts metric = false := by
    refine List.forall_mem_append.mpr ⟨fun metric member => ?_, fun metric member => ?_⟩
    · refine Bool.eq_false_iff.mpr fun isWanted => ?_
      exact nomatch (ofLater metric member).symm.trans (part_of_named sought isWanted)
    · simpa using absent metric member
  have isDisk : ∀ metric, isDiskMetric metric = true → partOf metric.name = .disks :=
    fun metric isDisk => of_decide_eq_true ((isDiskMetric_eq metric).symm.trans isDisk)
  have allDisks : disks.filter isDiskMetric = disks := by
    refine List.filter_eq_self.mpr fun metric member => ?_
    rw [isDiskMetric_eq, ofDisks metric member]
    rfl
  refine ⟨behind ++ (between ++ (disks ++ earlier)), ?_, ?_⟩
  · rw [whole, List.append_assoc before, List.cons_append, ← List.append_assoc later,
      seek_found noneBefore isNamed]
  · rw [List.filter_append, List.filter_append, List.filter_append, allDisks,
      filter_of_other_part isDisk ofBehind nofun, filter_of_other_part isDisk ofBetween nofun,
      filter_of_other_part isDisk ofEarlier nofun, List.nil_append, List.nil_append,
      List.append_nil]
    exact isDisks

end Popped

/-! ## The disk that is reported -/

/-- The entry has the name of the disk and its own numbers. -/
structure DescribesDisk (disk : Exporters.Disk) (entry : Disk) : Prop where
  name : disk.name = some entry.diskName
  totalBytes : entry.diskTotalBytes = toText disk.totalSpace
  availableBytes : entry.diskAvailableBytes = toText disk.availableSpace

theorem name_of_lookup {disk : Exporters.Disk} {name : Text}
    (found : disk.attributes.lookup "disk_name".toList = some name) : disk.name = some name := by
  have apart : ∀ key ∈ ["disk_file_system".toList, "disk_mount_point".toList,
      "disk_type".toList, "disk_is_removable".toList], key ≠ "disk_name".toList := by
    decide +kernel
  rcases lasts_append.mp (lookup_insertAll.mp found) with ⟨earlier, _⟩ | own
  · have keys : ((optionalEntry "disk_file_system".toList disk.fileSystem ++
        optionalEntry "disk_mount_point".toList disk.mountPoint ++
        [("disk_type".toList, disk.type.text), ("disk_is_removable".toList,
          if disk.isRemovable then "true".toList else "false".toList)]).map Prod.fst).Sublist
        ["disk_file_system".toList, "disk_mount_point".toList, "disk_type".toList,
          "disk_is_removable".toList] := by
      simp only [List.map_append]
      exact ((sublist_optionalEntry _ _).append (sublist_optionalEntry _ _)).append
        (List.Sublist.refl _)
    exact absurd rfl (apart _ (keys.subset (List.mem_map_of_mem (mem_of_lasts earlier))))
  · obtain ⟨_, isName, same⟩ := Option.map_eq_some_iff.mp (Option.mem_toList.mp (mem_of_lasts own))
    rw [isName, ← (Prod.mk.inj same).2]

theorem addingDisk_eq_ok {metric : Metric} {name : Text} {entry : Disk}
    (added : addingDisk metric name = .ok entry) : entry.diskName = name ∧
      entry.diskTotalBytes = valueIf .hostDiskTotalBytes metric [] ∧
      entry.diskAvailableBytes = valueIf .hostDiskAvailableBytes metric [] := by
  unfold addingDisk at added
  split at added
  · split at added
    · cases added
      exact ⟨rfl, rfl, rfl⟩
    · cases added
  · cases added
    exact ⟨rfl, rfl, rfl⟩

theorem valueIf_same (family : Family) (attributes : List (Text × Text)) (text other : Text) :
    valueIf family (family.metric attributes (.text text)) other = text :=
  if_pos (decide_eq_true rfl)

theorem valueIf_apart {family metricFamily : Family} (apart : metricFamily.name ≠ family.name)
    (attributes : List (Text × Text)) (value : MetricValueType) (other : Text) :
    valueIf family (metricFamily.metric attributes value) other = other :=
  if_neg fun isNamed => apart (of_decide_eq_true isNamed)

/-- The entry after the first metric of a disk. -/
theorem addDiskMetric_nil {disk : Exporters.Disk} {metric : Metric} {shown : List Disk}
    (attributes : metric.attributes = disk.attributes)
    (added : addDiskMetric [] metric = .ok shown) : ∃ entry, shown = [entry] ∧
      disk.name = some entry.diskName ∧
      entry.diskTotalBytes = valueIf .hostDiskTotalBytes metric [] ∧
      entry.diskAvailableBytes = valueIf .hostDiskAvailableBytes metric [] := by
  obtain ⟨name, isName, placed⟩ := bind_eq_ok added
  obtain ⟨entry, isEntry, whole⟩ := bind_eq_ok placed
  obtain ⟨rfl, total, available⟩ := addingDisk_eq_ok isEntry
  have found := getAttribute_of_expectAttribute isName
  rw [getAttribute, attributes] at found
  cases whole
  exact ⟨entry, rfl, name_of_lookup found, total, available⟩

/-- The entry after the second one. -/
theorem addDiskMetric_singleton {disk : Exporters.Disk} {metric : Metric} {entry : Disk}
    {shown : List Disk} (attributes : metric.attributes = disk.attributes)
    (same : disk.name = some entry.diskName)
    (added : addDiskMetric [entry] metric = .ok shown) : shown = [editingDisk metric entry] := by
  obtain ⟨name, isName, placed⟩ := bind_eq_ok added
  have found := getAttribute_of_expectAttribute isName
  rw [getAttribute, attributes] at found
  have isEntry : name = entry.diskName :=
    Option.some.inj ((name_of_lookup found).symm.trans same)
  have index : ([entry].findIdx? fun x => name = x.diskName) = some 0 := by
    simp [isEntry]
  rw [index] at placed
  cases placed
  rfl

theorem genDisksReport_pair {disk : Exporters.Disk} {first second : Metric} {shown : List Disk}
    (ofFirst : first.attributes = disk.attributes) (ofSecond : second.attributes = disk.attributes)
    (reported : genDisksReport [first, second] = .ok shown) :
    ∃ entry, shown = [entry] ∧ disk.name = some entry.diskName ∧
      entry.diskTotalBytes =
        valueIf .hostDiskTotalBytes second (valueIf .hostDiskTotalBytes first []) ∧
      entry.diskAvailableBytes =
        valueIf .hostDiskAvailableBytes second (valueIf .hostDiskAvailableBytes first []) := by
  obtain ⟨one, isOne, more⟩ := bind_eq_ok reported
  obtain ⟨two, isTwo, whole⟩ := bind_eq_ok more
  cases whole
  obtain ⟨entry, rfl, name, total, available⟩ := addDiskMetric_nil ofFirst isOne
  refine ⟨editingDisk second entry, addDiskMetric_singleton ofSecond name isTwo, name, ?_, ?_⟩
  · rw [← total]
    rfl
  · rw [← available]
    rfl

/-- The two metrics of a disk make one entry, in either order. -/
theorem describesDisk_of_pair {disk : Exporters.Disk} {block : List Metric} {shown : List Disk}
    (isBlock : block.Perm
      [Family.hostDiskTotalBytes.metric disk.attributes (.text (toText disk.totalSpace)),
        Family.hostDiskAvailableBytes.metric disk.attributes (.text (toText disk.availableSpace))])
    (reported : genDisksReport block = .ok shown) :
    ∃ entry, shown = [entry] ∧ DescribesDisk disk entry := by
  have apart : Family.hostDiskTotalBytes.name ≠ Family.hostDiskAvailableBytes.name := by
    decide +kernel
  rcases List.perm_pair.mp isBlock with rfl | rfl
  · obtain ⟨entry, isShown, name, total, available⟩ := genDisksReport_pair rfl rfl reported
    rw [valueIf_apart apart.symm, valueIf_same] at total
    rw [valueIf_same] at available
    exact ⟨entry, isShown, name, total, available⟩
  · obtain ⟨entry, isShown, name, total, available⟩ := genDisksReport_pair rfl rfl reported
    rw [valueIf_same] at total
    rw [valueIf_apart apart, valueIf_same] at available
    exact ⟨entry, isShown, name, total, available⟩

/-- Of the disks, the last one is reported. -/
theorem forall₂_describesDisk {disks : List Exporters.Disk} {block : List Metric}
    {shown : List Disk} (isBlock : block.Perm (diskMetrics disks))
    (reported : genDisksReport block = .ok shown) :
    List.Forall₂ DescribesDisk disks.getLast?.toList shown := by
  rw [diskMetrics, getDisks_eq] at isBlock
  cases isLast : disks.getLast? with
  | none =>
      rw [isLast] at isBlock
      rw [isBlock.eq_nil] at reported
      cases reported
      exact .nil
  | some last =>
      rw [isLast, Option.toList_some, List.flatMap_singleton] at isBlock
      obtain ⟨entry, rfl, described⟩ := describesDisk_of_pair isBlock reported
      exact .cons described .nil

/-! ## The socket that is reported -/

/-- The entries are those of the items, one for each, in some order. -/
def OneForEach {Item Entry : Type} (describes : Item → Entry → Prop) (items : List Item)
    (entries : List Entry) : Prop :=
  ∃ listed, listed.Perm entries ∧ List.Forall₂ describes items listed

/-- The domains of a socket that have a power, and the idle power. -/
def ownDomains (socket : SocketReadings) : List (Text × Reading) :=
  (socket.poweredDomains.map fun own => (own.1.name.text, own.2)) ++
    (socket.idleReading.map ("idle".toList, ·)).toList

section

variable {F : Type} (reader : FloatReader F)

def DescribesDomain (own : Text × Reading) (entry : Domain F) : Prop :=
  entry.name = own.1 ∧ reader.parseF32 own.2.value.toText = some entry.consumption

/-- The entry has the identifier of the socket, its own power and its own domains. -/
structure DescribesSocket (powered : SocketReadings × Reading) (entry : Socket F) : Prop where
  id : entry.id = powered.1.id
  consumption : reader.parseF32 powered.2.value.toText = some entry.consumption
  domains : OneForEach (DescribesDomain reader) (ownDomains powered.1) entry.domains

variable {reader}

theorem domain_eq_ok {topologySocket : TopologySocket F} {metric : Metric} {entry : Domain F}
    (read : domain reader topologySocket metric = .ok entry) :
    getAttribute metric "domain_name".toList = some entry.name ∧
      reader.parseF32 metric.metricValue.toText = some entry.consumption := by
  obtain ⟨name, isName, afterName⟩ := bind_eq_ok read
  obtain ⟨consumption, isConsumption, assembled⟩ := bind_eq_ok afterName
  cases assembled
  exact ⟨getAttribute_of_expectAttribute isName, parseF32_of_expectPower isConsumption⟩

theorem describesDomain_of_domain {socket : SocketReadings} {topologySocket : TopologySocket F}
    {own : DomainReadings × Reading} {entry : Domain F}
    (read : domain reader topologySocket (socket.domainMetric own).metric = .ok entry) :
    DescribesDomain reader (own.1.name.text, own.2) entry := by
  have fresh : ∀ other ∈ [OwnLabel.domainId own.1.id, OwnLabel.socketId socket.id],
      other.entry.1 ≠ "domain_name".toList := by
    have keys : "domain_id".toList ≠ "domain_name".toList ∧
      "socket_id".toList ≠ "domain_name".toList := by decide +kernel
    exact List.forall_mem_cons.mpr ⟨keys.1, List.forall_mem_singleton.mpr keys.2⟩
  have labels : (socket.domainMetric own).labels =
      [] ++ .domainName own.1.name :: [.domainId own.1.id, .socketId socket.id] := rfl
  have found : getAttribute (socket.domainMetric own).metric "domain_name".toList =
      some own.1.name.text := getAttribute_eq labels fresh
  obtain ⟨isName, isConsumption⟩ := domain_eq_ok read
  exact ⟨Option.some.inj (isName.symm.trans found), isConsumption⟩

theorem describesDomain_of_idle {socket : SocketReadings} {reading : Reading} {entry : Domain F}
    (read : idleDomain reader (socket.idleMetric reading).metric = .ok entry) :
    DescribesDomain reader ("idle".toList, reading) entry := by
  obtain ⟨consumption, isConsumption, assembled⟩ := bind_eq_ok read
  cases assembled
  exact ⟨rfl, parseF32_of_expectPower isConsumption⟩

/-- What is read for a socket when a metric was found. -/
theorem socket_cases {metrics : List Metric} {metric : Metric} {topologySocket : TopologySocket F}
    {value : Option (Socket F)}
    (read : socket reader metrics (some metric) topologySocket = .ok value) :
    (hasSocketId topologySocket.id metric = false ∧ value = none) ∨
      hasSocketId topologySocket.id metric = true ∧ ∃ entry domains idle,
        value = some entry ∧ entry.id = topologySocket.id ∧
        reader.parseF32 metric.metricValue.toText = some entry.consumption ∧
        (metrics.filter fun x => named .domainPowerMicrowatts x &&
          hasSocketId topologySocket.id x).mapM (domain reader topologySocket) = .ok domains ∧
        ((metrics.find? fun x => named .socketIdlePowerMicrowatts x &&
          hasSocketId topologySocket.id x).toList).mapM (idleDomain reader) = .ok idle ∧
        entry.domains = domains ++ idle := by
  unfold socket at read
  cases owned : hasSocketId topologySocket.id metric with
  | false =>
      rw [Option.filter_some, owned] at read
      cases read
      exact Or.inl ⟨rfl, rfl⟩
  | true =>
      rw [Option.filter_some, owned] at read
      obtain ⟨consumption, isConsumption, afterPower⟩ := bind_eq_ok read
      obtain ⟨domains, isDomains, afterDomains⟩ := bind_eq_ok afterPower
      obtain ⟨idle, isIdle, assembled⟩ := bind_eq_ok afterDomains
      cases assembled
      exact Or.inr ⟨rfl, _, domains, idle, rfl, rfl, parseF32_of_expectPower isConsumption,
        isDomains, isIdle, rfl⟩

variable {readings : Readings} {metrics : List Metric}

/-- The domains of the entry are those of the socket. -/
theorem Popped.describesDomains (popped : Popped readings metrics)
    (fits : ∀ socket ∈ readings.sockets, socket.id < 2 ^ 16)
    (distinct : (readings.sockets.map SocketReadings.id).Nodup) {socket : SocketReadings}
    (member : socket ∈ readings.sockets) {topologySocket : TopologySocket F}
    {domains idle : List (Domain F)}
    (isDomains : (metrics.filter fun x => named .domainPowerMicrowatts x &&
      hasSocketId socket.id x).mapM (domain reader topologySocket) = .ok domains)
    (isIdle : ((metrics.find? fun x => named .socketIdlePowerMicrowatts x &&
      hasSocketId socket.id x).toList).mapM (idleDomain reader) = .ok idle) :
    OneForEach (DescribesDomain reader) (ownDomains socket) (domains ++ idle) := by
  rw [popped.filter_socket fits distinct (by decide) member, socket.metricsUnder_domains,
    List.map_map, ← List.map_reverse] at isDomains
  rw [← List.head?_filter, popped.filter_socket fits distinct (by decide) member,
    socket.metricsUnder_idle] at isIdle
  have ofDomains : List.Forall₂ (fun own entry =>
      DescribesDomain reader (own.1.name.text, own.2) entry) socket.poweredDomains.reverse
        domains := by
    have read := forall₂_of_mapM_eq_ok isDomains
    rw [List.forall₂_map_left_iff] at read
    exact read.imp fun own entry => describesDomain_of_domain
  have ofIdle : List.Forall₂ (DescribesDomain reader)
      (socket.idleReading.map ("idle".toList, ·)).toList idle := by
    have read := forall₂_of_mapM_eq_ok isIdle
    cases isReading : socket.idleReading with
    | none =>
        rw [isReading] at read
        cases read
        exact .nil
    | some reading =>
        rw [isReading] at read
        obtain ⟨entry, _, isEntry, rest, rfl⟩ := List.forall₂_cons_left_iff.mp read
        cases rest
        exact .cons (describesDomain_of_idle isEntry) .nil
  refine ⟨domains.reverse ++ idle, (List.reverse_perm domains).append_right idle,
    List.rel_append ?_ ofIdle⟩
  rw [List.forall₂_map_left_iff]
  exact List.forall₂_reverse_iff.mp (by rwa [List.reverse_reverse])

theorem Popped.describesSocket (popped : Popped readings metrics)
    (fits : ∀ socket ∈ readings.sockets, socket.id < 2 ^ 16)
    (distinct : (readings.sockets.map SocketReadings.id).Nodup)
    {powered : SocketReadings × Reading} (member : powered ∈ poweredSockets readings)
    {topologySocket : TopologySocket F} {value : Option (Socket F)}
    (read : socket reader metrics (some (metricOf powered)) topologySocket = .ok value) :
    (topologySocket.id = powered.1.id →
        ∃ entry, value = some entry ∧ DescribesSocket reader powered entry) ∧
      (topologySocket.id ≠ powered.1.id → value = none) := by
  have isSocket : powered.1 ∈ readings.sockets := (mem_poweredSockets.mp member).1
  have owned : powered.1.Owns (powered.1.powerMetric powered.2) :=
    ⟨rfl, [], [], rfl, List.forall_mem_nil _⟩
  have same := hasSocketId_metric (fits powered.1 isSocket) owned topologySocket.id
  rcases socket_cases read with ⟨other, isNone⟩ | ⟨own, entry, domains, idle, isEntry, id, power,
    isDomains, isIdle, whole⟩
  · have apart : powered.1.id ≠ topologySocket.id := of_decide_eq_false (same.symm.trans other)
    exact ⟨fun equal => absurd equal.symm apart, fun _ => isNone⟩
  · have equal : powered.1.id = topologySocket.id := of_decide_eq_true (same.symm.trans own)
    refine ⟨fun _ => ⟨entry, isEntry, id.trans equal.symm, power, ?_⟩,
      fun apart => absurd equal.symm apart⟩
    rw [← equal] at isDomains isIdle
    rw [whole]
    exact popped.describesDomains fits distinct isSocket isDomains isIdle

/-! ## What a report has and when it has all -/

/-- Of the sockets that have a power, the last one is reported. -/
theorem Popped.sockets_shown (popped : Popped readings metrics)
    (fits : ∀ socket ∈ readings.sockets, socket.id < 2 ^ 16)
    (distinct : (readings.sockets.map SocketReadings.id).Nodup) {exporter : JsonExporter F}
    (same : exporter.sockets.map TopologySocket.id = readings.sockets.map SocketReadings.id)
    {sockets : List (Option (Socket F))}
    (read : exporter.sockets.mapM
      (socket reader metrics (seek (named .socketPowerMicrowatts) metrics).1) = .ok sockets) :
    List.Forall₂ (DescribesSocket reader) (poweredSockets readings).getLast?.toList
      sockets.reduceOption := by
  have each := forall₂_of_mapM_eq_ok read
  cases isLast : (poweredSockets readings).getLast? with
  | none =>
      rw [popped.seek_of_none (List.getLast?_eq_none_iff.mp isLast)] at each
      have empty : sockets.reduceOption = [] := by
        rw [List.reduceOption, List.filterMap_eq_nil_iff]
        intro value isValue
        obtain ⟨_, _, isNone⟩ := (exists_mem_of_forall₂ each).2 value isValue
        cases isNone
        rfl
      rw [empty]
      exact .nil
  | some last =>
      obtain ⟨rest, sought, _⟩ := popped.seek_of_last isLast
      have member : last ∈ poweredSockets readings := List.mem_of_getLast? isLast
      have known : last.1.id ∈ exporter.sockets.map TopologySocket.id := by
        rw [same]
        exact List.mem_map_of_mem (mem_poweredSockets.mp member).1
      rw [sought] at each
      obtain ⟨entry, isEntry, described⟩ := reduceOption_of_key each (same ▸ distinct) known
        (fun _ _ read => (popped.describesSocket fits distinct member read).1)
        (fun _ _ read => (popped.describesSocket fits distinct member read).2)
      rw [isEntry]
      exact .cons described .nil

/-- Of the disks the last one is reported, if a socket has a power. -/
def shownDisks (readings : Readings) : List Exporters.Disk :=
  if (poweredSockets readings).isEmpty then [] else readings.disks.getLast?.toList

theorem Popped.disks_shown (popped : Popped readings metrics) {disks : List Disk}
    (reported : genDisksReport
      ((seek (named .socketPowerMicrowatts) metrics).2.filter isDiskMetric) = .ok disks) :
    List.Forall₂ DescribesDisk (shownDisks readings) disks := by
  rw [shownDisks]
  cases isLast : (poweredSockets readings).getLast? with
  | none =>
      have unpowered := List.getLast?_eq_none_iff.mp isLast
      rw [popped.seek_of_none unpowered] at reported
      cases reported
      rw [unpowered]
      exact .nil
  | some last =>
      obtain ⟨rest, sought, isBlock⟩ := popped.seek_of_last isLast
      have powered : (poweredSockets readings).isEmpty = false :=
        List.isEmpty_eq_false_iff_exists_mem.mpr ⟨last, List.mem_of_getLast? isLast⟩
      rw [sought] at reported
      rw [powered]
      exact forall₂_describesDisk isBlock reported

/-- The report has one entry for each socket that has a power and one for each disk. -/
structure Complete (reader : FloatReader F) (readings : Readings) (report : Report F) : Prop where
  sockets : OneForEach (DescribesSocket reader) (poweredSockets readings) report.sockets
  disks : ∃ disks, report.host.disks = some disks ∧
    OneForEach DescribesDisk readings.disks disks

end

theorem length_eq_of_oneForEach {Item Entry : Type} {describes : Item → Entry → Prop}
    {items : List Item} {entries : List Entry} (each : OneForEach describes items entries) :
    items.length = entries.length := by
  obtain ⟨listed, same, described⟩ := each
  exact described.length_eq.trans same.length_eq

/-- Where the last item is reported, all are reported if there is no other. -/
theorem oneForEach_iff {Item Entry : Type} {describes : Item → Entry → Prop} {items : List Item}
    {entries : List Entry} (last : List.Forall₂ describes items.getLast?.toList entries) :
    OneForEach describes items entries ↔ items.length ≤ 1 := by
  constructor
  · intro each
    rw [length_eq_of_oneForEach each, ← last.length_eq]
    exact Option.length_toList_le
  · intro few
    have only : items.getLast?.toList = items := by
      match items, few with
      | [], _ => rfl
      | [item], _ => rfl
    rw [only] at last
    exact ⟨entries, List.Perm.refl _, last⟩

/-- A report has all just where at most one socket has a power and there is no disk, or one
disk and such a socket. -/
theorem report_complete_iff {F : Type} (reader : FloatReader F) (exporter : JsonExporter F)
    (readings : Readings) (metrics : List Metric) (report : Report F)
    (popped : Popped readings metrics)
    (fits : ∀ socket ∈ readings.sockets, socket.id < 2 ^ 16)
    (distinct : (readings.sockets.map SocketReadings.id).Nodup)
    (same : exporter.sockets.map TopologySocket.id = readings.sockets.map SocketReadings.id)
    (written : retrieveMetrics reader exporter metrics = .ok (some report)) :
    Complete reader readings report ↔ (poweredSockets readings).length ≤ 1 ∧
      (readings.disks = [] ∨ readings.disks.length = 1 ∧ poweredSockets readings ≠ []) := by
  obtain ⟨disks, _, sockets, isDisks, hostDisks, _, _, isSockets, reported⟩ :=
    retrieveMetrics_cases written
  have socketsShown := popped.sockets_shown fits distinct same isSockets
  have disksShown := popped.disks_shown isDisks
  rw [← reported] at socketsShown
  have disks_iff : OneForEach DescribesDisk readings.disks disks ↔
      readings.disks = [] ∨ readings.disks.length = 1 ∧ poweredSockets readings ≠ [] := by
    rw [shownDisks] at disksShown
    by_cases unpowered : poweredSockets readings = []
    · rw [unpowered] at disksShown
      cases disksShown
      constructor
      · intro each
        exact Or.inl (List.eq_nil_of_length_eq_zero (length_eq_of_oneForEach each))
      · rintro (empty | ⟨_, powered⟩)
        · rw [empty]
          exact ⟨[], List.Perm.refl _, .nil⟩
        · exact absurd unpowered powered
    · rw [if_neg (by simpa using unpowered)] at disksShown
      rw [oneForEach_iff disksShown, and_iff_left unpowered, ← List.length_eq_zero_iff]
      omega
  constructor
  · rintro ⟨ofSockets, shown, isShown, ofDisks⟩
    rw [hostDisks, Option.some.injEq] at isShown
    exact ⟨(oneForEach_iff socketsShown).mp ofSockets, disks_iff.mp (isShown ▸ ofDisks)⟩
  · rintro ⟨few, ofDisks⟩
    exact ⟨(oneForEach_iff socketsShown).mpr few, disks, hostDisks, disks_iff.mpr ofDisks⟩

/-! ## One socket and one disk, and two of each -/

theorem popped_reverse (readings : Readings) : Popped readings readings.genAllMetrics.reverse := by
  refine ⟨_, readings.processes.map (processMetrics readings), List.Perm.refl _, ?_, ?_⟩
  · rw [List.forall₂_map_right_iff]
    exact List.forall₂_same.mpr fun _ _ => List.Perm.refl _
  · simp only [Readings.genAllMetrics, Readings.genHostMetrics, Readings.genProcessMetrics,
      List.flatMap_def, List.append_assoc]
    rfl

def packageSocket (id power : Nat) : SocketReadings where
  id := id
  statsNb := 0
  records := [.number 1]
  power := some (.number power)
  idlePower := none
  activationPower := none
  backgroundPower := none
  mmio := none
  domains := [{ id := 0, name := .cpu, records := [.number 1], power := some (.number 40)
                mmio := none }]

def dataDisk (name : Text) (totalSpace availableSpace : Nat) : Exporters.Disk where
  fileSystem := some "ext4".toList
  mountPoint := none
  type := .ssd
  isRemovable := false
  name := some name
  totalSpace := totalSpace
  availableSpace := availableSpace

def hostWith (sockets : List SocketReadings) (disks : List Exporters.Disk) : Readings :=
  { TextExporter.oneProcess "sh".toList with
    records := [.number 1]
    power := some (.number 300)
    sockets := sockets
    disks := disks
    processes := [] }

def topologyExporter (ids : List Nat) : JsonExporter ExactFloat where
  consumers := []
  watchContainers := false
  monitorResources := false
  sockets := ids.map fun id => ⟨id, []⟩
  corePowers := none
  coreCoefs := []
  coreProportions := []

/-- The report for the socket 1 and the disk `sdb`. -/
def lastReport : Report ExactFloat where
  host := {
    consumption := .num 300
    disks := some [{
      diskType := "SSD".toList
      diskMountPoint := []
      diskIsRemovable := false
      diskFileSystem := "ext4".toList
      diskTotalBytes := "80".toList
      diskAvailableBytes := "20".toList
      diskName := "sdb".toList }]
    activation := none
    background := none }
  idle := none
  activation := none
  background := none
  consumers := []
  sockets := [{
    id := 1
    consumption := .num 200
    domains := [{ name := "core".toList, consumption := .num 40, background := none }]
    activation := none
    background := none }]
  cores := []

theorem report_complete_of_one_socket :
    retrieveMetrics exactReader (topologyExporter [1])
        (hostWith [packageSocket 1 200] [dataDisk "sdb".toList 80 20]).genAllMetrics.reverse =
      .ok (some lastReport) ∧
    Complete exactReader (hostWith [packageSocket 1 200] [dataDisk "sdb".toList 80 20])
      lastReport := by
  have written : retrieveMetrics exactReader (topologyExporter [1])
      (hostWith [packageSocket 1 200] [dataDisk "sdb".toList 80 20]).genAllMetrics.reverse =
        .ok (some lastReport) := by decide +kernel
  refine ⟨written, (report_complete_iff exactReader _ _ _ _ (popped_reverse _) ?_ ?_ rfl
    written).mpr ⟨?_, Or.inr ⟨rfl, ?_⟩⟩⟩
  · exact List.forall_mem_singleton.mpr (by decide)
  · exact List.nodup_singleton _
  · exact Nat.le_refl 1
  · exact List.cons_ne_nil _ _

/-- The first socket and the first disk are not reported. -/
theorem not_report_complete_of_two_sockets :
    ¬ ∀ (reader : FloatReader ExactFloat) (exporter : JsonExporter ExactFloat)
        (readings : Readings) (metrics : List Metric) (report : Report ExactFloat),
      Popped readings metrics → (∀ socket ∈ readings.sockets, socket.id < 2 ^ 16) →
      (readings.sockets.map SocketReadings.id).Nodup →
      exporter.sockets.map TopologySocket.id = readings.sockets.map SocketReadings.id →
      (readings.disks.map Exporters.Disk.name).Nodup →
      retrieveMetrics reader exporter metrics = .ok (some report) →
      Complete reader readings report := by
  intro all
  have written : retrieveMetrics exactReader (topologyExporter [0, 1])
      (hostWith [packageSocket 0 100, packageSocket 1 200]
        [dataDisk "sda".toList 50 10, dataDisk "sdb".toList 80 20]).genAllMetrics.reverse =
        .ok (some lastReport) := by decide +kernel
  have complete := all exactReader _ _ _ _ (popped_reverse _) (by decide) (by decide) rfl
    (by decide +kernel) written
  exact absurd (length_eq_of_oneForEach complete.sockets) (by decide)

end Json

end ScaphandreFormal.Exporters
