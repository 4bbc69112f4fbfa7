import ScaphandreFormal.Foundation.Apportionment
import ScaphandreFormal.Foundation.Fallible
import ScaphandreFormal.Sensors.Attribution

/-!
# Core powers and the power of a process

The power of a process is computed from vectors that are built apart: the core
powers of each socket, sorted again over all sockets, and the proportions of the
process, in the order of the sorted cores.  Here both are shown to be columns of
one list of cores with their powers, so that a process gets the apportioned sum
over exactly the cores of the sockets.
-/

namespace ScaphandreFormal.Sensors

open Foundation

variable {F Trace : Type} [Float64 F]

/-! ## Cores with their powers -/

/-- The cores of the socket, each with its power. -/
def CPUSocket.corePowers (now : Nat) (socket : CPUSocket F) : Option (List (CPUCore F × F)) :=
  (socket.getProportionalCoreDiffPowerMicrowatts now).map fun record =>
    socket.getCores.zip record.values

namespace Topology

/-- The cores of all sockets, each with its power; one socket without a power leaves none. -/
def corePowers (now : Nat) (topology : Topology F Trace) : List (CPUCore F × F) :=
  ((topology.sockets.mapM (CPUSocket.corePowers now)).getD []).flatten

/-- The value of a metric when it is the power of the process. -/
def powerValue (metric : ProcessMetric F) : Option F :=
  if metric.name = powerMetricName then
    match metric.record.value with
    | .number value => some value
    | _ => none
  else none

/-- `scaph_process_power_consumption_microwatts`, zero for a process without it. -/
def processPower (now : Nat) (topology : Topology F Trace) (pid : Nat) : Except Panic F := do
  let metrics ← topology.getAllPerProcess now pid
  return (metrics.findSome? powerValue).getD (Float64.ofU64 0)

/-- The sum of the powers of the processes. -/
def processesPower (now : Nat) (topology : Topology F Trace) (pids : List Nat) :
    Except Panic F := do
  let powers ← pids.mapM (topology.processPower now)
  return Float64.sum powers

end Topology

/-! ## The order of the cores -/

theorem map_sortById {Item Other : Type} (f : Item → Other) (key : Other → Nat)
    (items : List Item) :
    (sortById (fun item => key (f item)) items).map f = sortById key (items.map f) :=
  List.map_insertionSort _ _ f items fun _ _ _ _ => Iff.rfl

theorem sortById_perm {Item : Type} (key : Item → Nat) (items : List Item) :
    (sortById key items).Perm items :=
  List.perm_insertionSort _ items

namespace CPUSocket

/-- The powers of a socket are as many as its cores. -/
theorem length_powers {now : Nat} {socket : CPUSocket F} {record : MultiValuedRecord F}
    (read : socket.getProportionalCoreDiffPowerMicrowatts now = some record) :
    record.values.length = socket.getCores.length := by
  unfold getProportionalCoreDiffPowerMicrowatts at read
  split at read
  · cases read
    simp [getCoreProportions, getCoreCoefs]
  · cases read

theorem map_fst_corePowers {now : Nat} {socket : CPUSocket F} {powers : List (CPUCore F × F)}
    (read : socket.corePowers now = some powers) : powers.map Prod.fst = socket.getCores := by
  obtain ⟨record, recorded, rfl⟩ := Option.map_eq_some_iff.mp read
  exact List.map_fst_zip (length_powers recorded).ge

end CPUSocket

namespace Topology

/-- The loop over the sockets collects the cores with their powers, by id. -/
theorem collectCorePowers_eq (now : Nat) (sockets : List (CPUSocket F)) :
    collectCorePowers now sockets =
      (sockets.mapM (CPUSocket.corePowers now)).map fun powers =>
        powers.flatten.map fun source => (source.1.id, source.2) := by
  induction sockets with
  | nil => rfl
  | cons socket rest ih =>
      rw [collectCorePowers, List.mapM_cons, ih]
      cases read : socket.getProportionalCoreDiffPowerMicrowatts now with
      | none =>
          have absent : socket.corePowers now = none := by rw [CPUSocket.corePowers, read]; rfl
          rw [absent]
          rfl
      | some record =>
          have present : socket.corePowers now = some (socket.getCores.zip record.values) := by
            rw [CPUSocket.corePowers, read]
            rfl
          rw [present]
          cases rest.mapM (CPUSocket.corePowers now) with
          | none => rfl
          | some later =>
              simp [List.zip_map_left, Prod.map]

theorem flatMap_getCores {now : Nat} {sockets : List (CPUSocket F)}
    {powers : List (List (CPUCore F × F))}
    (read : sockets.mapM (CPUSocket.corePowers now) = some powers) :
    sockets.flatMap CPUSocket.getCores = powers.flatten.map Prod.fst := by
  induction sockets generalizing powers with
  | nil =>
      cases read
      rfl
  | cons socket rest ih =>
      rw [List.mapM_cons] at read
      obtain ⟨own, readOwn, others⟩ := Option.bind_eq_some_iff.mp read
      obtain ⟨later, readLater, whole⟩ := Option.bind_eq_some_iff.mp others
      cases whole
      rw [List.flatMap_cons, List.flatten_cons, List.map_append, ih readLater,
        CPUSocket.map_fst_corePowers readOwn]

/-- The cores with their powers in the order of the core ids. -/
def sortedCorePowers (now : Nat) (topology : Topology F Trace) : List (CPUCore F × F) :=
  sortById (fun source => source.1.id) (topology.corePowers now)

/-- With a power of every socket, the sorted core powers are one column of the sorted pairs
and the sorted cores the other. -/
theorem columns_of_read {now : Nat} {topology : Topology F Trace} {record : MultiValuedRecord F}
    (read : topology.getProportionalCoreDiffPowerMicrowatts now = some record) :
    record.values = (topology.sortedCorePowers now).map Prod.snd ∧
      topology.getCores = (topology.sortedCorePowers now).map Prod.fst := by
  obtain ⟨collected, loop, rfl⟩ := Option.map_eq_some_iff.mp read
  rw [collectCorePowers_eq] at loop
  obtain ⟨powers, readAll, rfl⟩ := Option.map_eq_some_iff.mp loop
  have pairs : topology.corePowers now = powers.flatten := by rw [corePowers, readAll]; rfl
  have byId := map_sortById (fun source : CPUCore F × F => (source.1.id, source.2)) Prod.fst
    powers.flatten
  constructor
  · rw [sortedCorePowers, pairs, ← byId]
    exact List.map_map
  · rw [sortedCorePowers, pairs, map_sortById Prod.fst CPUCore.id, getCores,
      flatMap_getCores readAll]

theorem corePowers_of_unread {now : Nat} {topology : Topology F Trace}
    (unread : topology.getProportionalCoreDiffPowerMicrowatts now = none) :
    topology.corePowers now = [] := by
  have loop := Option.map_eq_none_iff.mp unread
  rw [collectCorePowers_eq] at loop
  rw [corePowers, Option.map_eq_none_iff.mp loop]
  rfl

/-! ## The attribution to one process -/

/-- Powers and proportions that are columns of one list never leave the vectors. -/
theorem attributedPower_eq {Item : Type} (power proportion : Item → F) (items : List Item) :
    attributedPower (items.map power) (items.map proportion) =
      .ok (Float64.sum (items.map fun item => Float64.mul (power item) (proportion item))) := by
  -- The induction goes over the rest of both vectors, behind the part already read.
  have loop : ∀ read : List F,
      (((items.map power).zipIdx read.length).mapM fun entry => do
        let percentage ← indexed (read ++ items.map proportion) entry.2
        return Float64.mul entry.1 percentage) =
      (.ok (items.map fun item => Float64.mul (power item) (proportion item)) :
        Except Panic (List F)) := by
    induction items with
    | nil => exact fun _ => rfl
    | cons item rest ih =>
        intro read
        have here : indexed (read ++ proportion item :: rest.map proportion) read.length =
            .ok (proportion item) := by
          simp [indexed]
        have later := ih (read ++ [proportion item])
        simp only [List.append_assoc, List.singleton_append, List.length_append,
          List.length_singleton] at later
        simp only [List.map_cons, List.zipIdx_cons, List.mapM_cons, here, later]
        rfl
  have whole := loop []
  simp only [List.nil_append, List.length_nil] at whole
  rw [attributedPower, whole]
  rfl

/-- Proportions that follow the cores are applied to the power of their core. -/
theorem attributedResult_eq (now : Nat) (topology : Topology F Trace)
    (proportion : CPUCore F → F) :
    topology.attributedResult now (topology.getCores.map proportion) =
      .ok (Float64.sum ((topology.sortedCorePowers now).map fun source =>
        Float64.mul source.2 (proportion source.1))) := by
  unfold attributedResult
  cases read : topology.getProportionalCoreDiffPowerMicrowatts now with
  | none =>
      rw [sortedCorePowers, corePowers_of_unread read]
      rfl
  | some powers =>
      obtain ⟨values, cores⟩ := columns_of_read read
      simp only [values, cores, List.map_map]
      exact attributedPower_eq _ _ _

theorem getProcessLastRecord_of_timed {tracker : ProcessTracker Trace} {pid : Nat}
    {deltas : List UInt64} (timed : tracker.getPerCoreCpuTimeDelta pid = some deltas) :
    ∃ record, tracker.getProcessLastRecord pid = some record := by
  unfold ProcessTracker.getPerCoreCpuTimeDelta at timed
  split at timed
  · rename_i last prev older found
    refine ⟨last, ?_⟩
    rw [ProcessTracker.getProcessLastRecord, found]
    rfl
  · cases timed

/-- Without the deltas of the process or those of the CPUs there are no time data. -/
theorem getProcessCoreTimeData_of_absent {topology : Topology F Trace} {pid : Nat}
    (absent : topology.procTracker.getPerCoreCpuTimeDelta pid = none ∨
      topology.getCpuTimeDiff = none) : topology.getProcessCoreTimeData pid = .ok none := by
  unfold getProcessCoreTimeData
  rcases absent with untimed | undiffered
  · rw [untimed]
    rfl
  · rw [undiffered]
    cases topology.procTracker.getPerCoreCpuTimeDelta pid with
    | none => rfl
    | some deltas => rfl

theorem getProcessCoreProportions_of_some {topology : Topology F Trace} {pid : Nat}
    {data : CoreTimeData F} (timed : topology.getProcessCoreTimeData pid = .ok (some data)) :
    topology.getProcessCoreProportions pid = .ok (some data.proportions) := by
  unfold getProcessCoreProportions
  rw [timed]
  rfl

theorem getProcessCoreProportions_of_none {topology : Topology F Trace} {pid : Nat}
    (untimed : topology.getProcessCoreTimeData pid = .ok none) :
    topology.getProcessCoreProportions pid =
      .ok ((topology.procTracker.getProcessCpuTimeDeltaAsPercentage F pid).map
        fun percentage => topology.getCores.map (fallbackProportion percentage)) := by
  unfold getProcessCoreProportions
  rw [untimed]
  rfl

/-- Core time data is there only when the deltas cover every core. -/
theorem covered_of_ok {topology : Topology F Trace} {pid : Nat} {deltas : List UInt64}
    {diff : MultiValuedRecord Text} {data : CoreTimeData F}
    (timed : topology.procTracker.getPerCoreCpuTimeDelta pid = some deltas)
    (differs : topology.getCpuTimeDiff = some diff)
    (found : topology.getProcessCoreTimeData pid = .ok (some data)) :
    ∀ core ∈ topology.getCores, core.id < deltas.length := by
  cases processNs : topology.getCores.mapM fun core => indexed deltas core.id with
  | error panic =>
      unfold getProcessCoreTimeData at found
      simp only [timed, differs, processNs] at found
      cases proportions : topology.getCores.mapM fun core =>
        if 0 < totalNsOf diff core then do
          let delta ← indexed deltas core.id
          return Float64.min (Float64.div (Float64.ofU64 delta.toNat)
            (Float64.ofU64 (totalNsOf diff core))) (Float64.ofU64 1)
        else return (Float64.ofU64 0 : F) with
      | error panic =>
          rw [proportions] at found
          cases found
      | ok parts =>
          rw [proportions] at found
          cases found
  | ok times =>
      intro core member
      obtain ⟨delta, _, read⟩ := exists_mem_of_mapM_eq_ok processNs core member
      unfold indexed at read
      split at read
      · rename_i atCore
        exact (List.getElem?_eq_some_iff.mp atCore).1
      · cases read

omit [Float64 F] in
/-- None of the metrics before the power has its name. -/
theorem findSome?_usageMetrics (record : ProcessRecord Trace) (percentage : F) :
    (usageMetrics record percentage).findSome? powerValue = none := by
  have named : ∀ metric ∈ usageMetrics record percentage, metric.name ≠ powerMetricName := by
    simp only [usageMetrics, List.forall_mem_cons]
    refine ⟨?_, ?_, ?_, ?_, ?_, ?_, ?_, fun _ absent => nomatch absent⟩ <;> decide
  rw [List.findSome?_eq_none_iff]
  exact fun metric member => if_neg (named metric member)

/-- The metric of the power. -/
def powerMetric (record : ProcessRecord Trace) (result : F) : ProcessMetric F :=
  ⟨powerMetricName, "Total data read on disk by the process, in bytes".toList,
    ⟨record.timestamp, .number result, .microWatt⟩⟩

/-- What the metrics of a process are: none without a record, else those of its usage, and with
proportions also the power and the core times. -/
theorem getAllPerProcess_cases {now : Nat} {topology : Topology F Trace} {pid : Nat}
    {metrics : List (ProcessMetric F)} (read : topology.getAllPerProcess now pid = .ok metrics) :
    (topology.procTracker.getProcessLastRecord pid = none ∧ metrics = []) ∨
    ∃ record data percentages usage, topology.procTracker.getProcessLastRecord pid = some record ∧
      topology.getProcessCoreTimeData pid = .ok data ∧
      topology.getProcessCoreProportions pid = .ok percentages ∧
      usage = ((topology.procTracker.getProcessCpuTimeDeltaAsPercentage F pid).map
        (usageMetrics record)).getD [] ∧
      ((percentages = none ∧ metrics = usage) ∨ ∃ result, metrics =
        usage ++ powerMetric record result :: (data.map (coreTimeMetrics record)).getD []) := by
  unfold getAllPerProcess at read
  split at read
  · rename_i untracked
    cases read
    exact Or.inl ⟨untracked, rfl⟩
  · rename_i record tracked
    obtain ⟨data, readData, afterData⟩ := bind_eq_ok read
    obtain ⟨percentages, readShares, afterShares⟩ := bind_eq_ok afterData
    refine Or.inr ⟨record, data, percentages, _, tracked, readData, readShares, rfl, ?_⟩
    cases percentages with
    | none =>
        cases afterShares
        refine Or.inl ⟨rfl, ?_⟩
        cases topology.procTracker.getProcessCpuTimeDeltaAsPercentage F pid <;> rfl
    | some found =>
        obtain ⟨result, _, assembled⟩ := bind_eq_ok afterShares
        cases assembled
        refine Or.inr ⟨result, ?_⟩
        rw [List.append_assoc]
        cases topology.procTracker.getProcessCpuTimeDeltaAsPercentage F pid <;> cases data <;> rfl

/-- A process with proportions shows the power that they give it. -/
theorem processPower_of_proportions {now : Nat} {topology : Topology F Trace} {pid : Nat}
    {record : ProcessRecord Trace} {data : Option (CoreTimeData F)} {percentages : List F}
    {result : F} (tracked : topology.procTracker.getProcessLastRecord pid = some record)
    (timed : topology.getProcessCoreTimeData pid = .ok data)
    (shared : topology.getProcessCoreProportions pid = .ok (some percentages))
    (attributed : topology.attributedResult now percentages = .ok result) :
    topology.processPower now pid = .ok result := by
  unfold processPower getAllPerProcess
  simp only [tracked, timed, shared, attributed, bind, Except.bind, pure, Except.pure]
  cases topology.procTracker.getProcessCpuTimeDeltaAsPercentage F pid with
  | none => rfl
  | some percentage =>
      simp only [List.findSome?_append, findSome?_usageMetrics]
      rfl

/-- A process without proportions shows no power. -/
theorem processPower_of_no_proportions {now : Nat} {topology : Topology F Trace} {pid : Nat}
    {data : Option (CoreTimeData F)} (timed : topology.getProcessCoreTimeData pid = .ok data)
    (unshared : topology.getProcessCoreProportions pid = .ok none) :
    topology.processPower now pid = .ok (Float64.ofU64 0) := by
  unfold processPower getAllPerProcess
  cases topology.procTracker.getProcessLastRecord pid with
  | none => rfl
  | some record =>
      simp only [timed, unshared, bind, Except.bind, pure, Except.pure]
      cases topology.procTracker.getProcessCpuTimeDeltaAsPercentage F pid with
      | none => rfl
      | some percentage =>
          simp only [findSome?_usageMetrics]
          rfl

end Topology

end ScaphandreFormal.Sensors
