import ScaphandreFormal.Ebpf.MapsInStep

/-!
# Exactness of the CPU time accounting

The ledger is what the two accounting programs are for: it knows the task on
every CPU, the moment its run slice was first seen, and all completed slices.
A node runs the ledger and the real maps side by side.  `PID_LAST` is keyed by
process, so the maps follow the ledger exactly as long as an entry of it is
created or deleted only by a CPU that runs the process alone.
-/

namespace ScaphandreFormal.Ebpf

open Foundation

/-- A schedulable task.  Only the idle tasks have thread id zero, and they have process
id zero too. -/
structure Task where
  tgid : Nat
  tid : Nat
  idle_iff : tgid = 0 ↔ tid = 0
  deriving DecidableEq

namespace Task

def idle : Task := ⟨0, 0, Iff.rfl⟩

/-- What the programs read of the task. -/
def struct (task : Task) : TaskStruct := ⟨task.tgid, task.tid⟩

/-- The programs' test for a task that is not idle. -/
theorem struct_counted_iff (task : Task) :
    (task.struct.tgid ≠ 0 ∧ task.struct.pid ≠ 0) ↔ task.tgid ≠ 0 := by
  simp only [struct, Ne, ← task.idle_iff, and_self]

theorem struct_skipped_iff (task : Task) :
    (task.struct.tgid = 0 ∨ task.struct.pid = 0) ↔ task.tgid = 0 := by
  simp only [struct, ← task.idle_iff, or_self]

end Task

/-- A completed run slice of a task that is not idle. -/
structure Slice where
  cpu : Nat
  tgid : Nat
  start : Nat
  stop : Nat
  deriving DecidableEq, Repr

def Slice.length (slice : Slice) : Nat := slice.stop - slice.start

structure Ledger where
  running : Nat → Task
  opened : Nat → Option Nat
  slices : List Slice
  clock : Nat

namespace Ledger

/-- Nothing has been seen yet of the tasks that are running. -/
def initial (running : Nat → Task) : Ledger := ⟨running, fun _ => none, [], 0⟩

/-- The slice that ends when the task of `cpu` is switched off. -/
def closing (ledger : Ledger) (now cpu : Nat) : Option Slice :=
  if (ledger.running cpu).tgid = 0 then none
  else (ledger.opened cpu).map fun start => ⟨cpu, (ledger.running cpu).tgid, start, now⟩

def switch (ledger : Ledger) (now cpu : Nat) (next : Task) : Ledger where
  running := fun core => if core = cpu then next else ledger.running core
  opened := fun core => if core = cpu then some now else ledger.opened core
  slices := (ledger.closing now cpu).toList ++ ledger.slices
  clock := now

/-- A tick opens the slice of a task whose switch-in was not observed. -/
def tick (ledger : Ledger) (now cpu : Nat) : Ledger :=
  { ledger with
    opened := fun core =>
      if core = cpu ∧ (ledger.running cpu).tgid ≠ 0 ∧ ledger.opened cpu = none then some now
      else ledger.opened core
    clock := now }

/-- Total length of the completed slices on `cpu`. -/
def total (ledger : Ledger) (cpu : Nat) : Nat :=
  ((ledger.slices.filter fun slice => slice.cpu = cpu).map Slice.length).sum

/-- The part of it that threads of `tgid` ran. -/
def totalOf (ledger : Ledger) (tgid cpu : Nat) : Nat :=
  ((ledger.slices.filter fun slice => slice.cpu = cpu ∧ slice.tgid = tgid).map
    Slice.length).sum

theorem closing_owner {ledger : Ledger} {now cpu : Nat} {slice : Slice}
    (closes : ledger.closing now cpu = some slice) :
    slice.cpu = cpu ∧ slice.tgid = (ledger.running cpu).tgid := by
  unfold closing at closes
  split at closes
  · cases closes
  · obtain ⟨start, -, rfl⟩ := Option.map_eq_some_iff.mp closes
    exact ⟨rfl, rfl⟩

theorem total_switch (ledger : Ledger) (now cpu : Nat) (next : Task) (core : Nat) :
    (ledger.switch now cpu next).total core =
      ledger.total core +
        (if core = cpu then ((ledger.closing now cpu).map Slice.length).getD 0 else 0) := by
  unfold total switch
  cases closes : ledger.closing now cpu with
  | none => simp
  | some slice =>
      obtain ⟨onCpu, -⟩ := closing_owner closes
      by_cases here : core = cpu
      · simp [onCpu, here, Nat.add_comm]
      · have elsewhere : ¬ slice.cpu = core := fun equal => here (equal.symm.trans onCpu)
        simp [elsewhere, here]

theorem totalOf_switch (ledger : Ledger) (now cpu : Nat) (next : Task) (tgid core : Nat) :
    (ledger.switch now cpu next).totalOf tgid core =
      ledger.totalOf tgid core +
        (if core = cpu ∧ tgid = (ledger.running cpu).tgid then
          ((ledger.closing now cpu).map Slice.length).getD 0 else 0) := by
  unfold totalOf switch
  cases closes : ledger.closing now cpu with
  | none => simp
  | some slice =>
      obtain ⟨onCpu, ofTask⟩ := closing_owner closes
      by_cases here : core = cpu ∧ tgid = (ledger.running cpu).tgid
      · simp [onCpu, ofTask, here, Nat.add_comm]
      · have elsewhere : ¬ (slice.cpu = core ∧ slice.tgid = tgid) := by
          rintro ⟨rfl, rfl⟩
          exact here ⟨onCpu, ofTask⟩
        simp [elsewhere, here]

theorem totalOf_le_total (ledger : Ledger) (tgid cpu : Nat) :
    ledger.totalOf tgid cpu ≤ ledger.total cpu := by
  have fewer : (ledger.slices.filter fun slice => slice.cpu = cpu ∧ slice.tgid = tgid).Sublist
      (ledger.slices.filter fun slice => slice.cpu = cpu) := by
    apply List.monotone_filter_right
    intro slice
    simp only [decide_eq_true_eq]
    exact And.left
  exact (fewer.map Slice.length).sum_le_sum (fun _ _ => Nat.zero_le _)

end Ledger

/-! ## A node: the ledger beside the maps -/

structure Node where
  ledger : Ledger
  maps : Maps

inductive SchedEvent where
  | schedSwitch (now : UInt64) (cpu : Nat) (next : Task)
  | sampleTick (now : UInt64) (cpu : Nat)
  deriving DecidableEq

namespace Node

def initial (running : Nat → Task) : Node := ⟨.initial running, .empty⟩

/-- The task switched off, or sampled, is the one running on the event's CPU. -/
def step (node : Node) : SchedEvent → Node
  | .schedSwitch now cpu next =>
      { ledger := node.ledger.switch now.toNat cpu next
        maps := Ebpf.step node.maps
          (.schedSwitch now cpu (some (node.ledger.running cpu).struct) (some next.struct)) }
  | .sampleTick now cpu =>
      { ledger := node.ledger.tick now.toNat cpu
        maps := Ebpf.step node.maps (.sampleTick now cpu (node.ledger.running cpu).struct) }

/-- `CPU_TIME` and `PID_TIMES` of `cpu` are the lengths of its completed slices. -/
def Exact (node : Node) (cpu : Nat) : Prop :=
  (node.maps.cpuTime.values cpu).toNat = node.ledger.total cpu ∧
    ∀ tgid, (node.maps.pidTimes.read tgid cpu).toNat = node.ledger.totalOf tgid cpu

/-- What a run assumes of every event: it is on one of the machine's CPUs, time does not
go backwards, and neither map is full. -/
def Admissible (cpus : Nat) (node : Node) (event : SchedEvent) : Prop :=
  (match event with
    | .schedSwitch now cpu _ => cpu < cpus ∧ node.ledger.clock ≤ now.toNat
    | .sampleTick now cpu => cpu < cpus ∧ node.ledger.clock ≤ now.toNat) ∧
  node.maps.pidTimes.keys.length < maxKeys ∧ node.maps.pidLast.keys.length < maxKeys

instance (cpus : Nat) (node : Node) : ∀ event, Decidable (node.Admissible cpus event)
  | .schedSwitch now cpu _ =>
      inferInstanceAs (Decidable ((cpu < cpus ∧ node.ledger.clock ≤ now.toNat) ∧
        node.maps.pidTimes.keys.length < maxKeys ∧ node.maps.pidLast.keys.length < maxKeys))
  | .sampleTick now cpu =>
      inferInstanceAs (Decidable ((cpu < cpus ∧ node.ledger.clock ≤ now.toNat) ∧
        node.maps.pidTimes.keys.length < maxKeys ∧ node.maps.pidLast.keys.length < maxKeys))

/-- No CPU but `cpu` runs a task of process `tgid`. -/
def Alone (cpus : Nat) (node : Node) (cpu tgid : Nat) : Prop :=
  ∀ other, other < cpus → other ≠ cpu → (node.ledger.running other).tgid ≠ tgid

/-- The event deletes or creates the `PID_LAST` entry of a process only while no other CPU
runs a task of that process. -/
def EntryUnshared (cpus : Nat) (node : Node) : SchedEvent → Prop
  | .schedSwitch _ cpu next =>
      ((node.ledger.running cpu).tgid ≠ 0 →
        (node.ledger.running cpu).tgid ∈ node.maps.pidLast.keys →
          node.Alone cpus cpu (node.ledger.running cpu).tgid) ∧
      (next.tgid ≠ 0 → next.tgid ∉ node.maps.pidLast.keys → node.Alone cpus cpu next.tgid)
  | .sampleTick _ cpu =>
      (node.ledger.running cpu).tgid ≠ 0 →
        (node.ledger.running cpu).tgid ∉ node.maps.pidLast.keys →
          node.Alone cpus cpu (node.ledger.running cpu).tgid

instance (cpus : Nat) (node : Node) (cpu tgid : Nat) : Decidable (node.Alone cpus cpu tgid) :=
  inferInstanceAs (Decidable (∀ other, other < cpus → other ≠ cpu →
    (node.ledger.running other).tgid ≠ tgid))

instance (cpus : Nat) (node : Node) : ∀ event, Decidable (node.EntryUnshared cpus event)
  | .schedSwitch _ _ _ => inferInstanceAs (Decidable ((_ → _ → _) ∧ (_ → _ → _)))
  | .sampleTick _ _ => inferInstanceAs (Decidable (_ → _ → _))

end Node

/-! ## What one event does to the maps -/

/-- With a free entry, a credit is seen by its own CPU only. -/
theorem read_creditPid {maps : Maps} (room : maps.pidTimes.keys.length < maxKeys)
    (tgid cpu : Nat) (delta : UInt64) (other core : Nat) :
    (maps.creditPid tgid cpu delta).pidTimes.read other core =
      if other = tgid ∧ core = cpu then maps.pidTimes.read tgid cpu + delta
      else maps.pidTimes.read other core := by
  unfold Maps.creditPid
  cases found : maps.pidTimes.get? tgid cpu with
  | some time =>
      have present := ((PerCpuHashMap.get?_eq_some_iff _ _ _ _).mp found).1
      by_cases here : other = tgid ∧ core = cpu
      · simp [PerCpuHashMap.read, PerCpuHashMap.get?_write, here, present, found]
      · have elsewhere : ¬ (other = tgid ∧ core = cpu ∧ tgid ∈ maps.pidTimes.keys) :=
          fun both => here ⟨both.1, both.2.1⟩
        rw [if_neg here]
        simp only [PerCpuHashMap.read, PerCpuHashMap.get?_write, if_neg elsewhere]
  | none =>
      have absent := (PerCpuHashMap.get?_eq_none_iff _ _ _).mp found
      by_cases same : other = tgid
      · subst same
        have nowhere : maps.pidTimes.get? other core = none :=
          (PerCpuHashMap.get?_eq_none_iff _ _ _).mpr absent
        by_cases here : core = cpu <;>
          simp [PerCpuHashMap.read, PerCpuHashMap.get?_insert room, here, absent, found, nowhere]
      · simp [PerCpuHashMap.read, PerCpuHashMap.get?_insert room, same]

theorem switch_pidLast (maps : Maps) (now : UInt64) (cpu : Nat) (prev next : Task) :
    (step maps (.schedSwitch now cpu (some prev.struct) (some next.struct))).pidLast =
      (if prev.tgid ≠ 0 ∧ prev.tgid ∈ maps.pidLast.keys then maps.pidLast.remove prev.tgid
        else maps.pidLast).insert next.tgid cpu now := by
  simp only [step, trySchedSwitch, prev.struct_counted_iff]
  by_cases idle : prev.tgid = 0
  · simp [idle, Task.struct]
  · cases found : maps.pidLast.get? prev.tgid cpu with
    | none =>
        have absent := (PerCpuHashMap.get?_eq_none_iff _ _ _).mp found
        simp [idle, absent, found, Task.struct]
    | some last =>
        have present := ((PerCpuHashMap.get?_eq_some_iff _ _ _ _).mp found).1
        simp [idle, present, found, Task.struct]

theorem tick_pidLast (maps : Maps) (now : UInt64) (cpu : Nat) (current : Task) :
    (step maps (.sampleTick now cpu current.struct)).pidLast =
      if current.tgid = 0 then maps.pidLast else maps.pidLast.insert current.tgid cpu now := by
  simp only [step, sampleTick, current.struct_skipped_iff]
  by_cases idle : current.tgid = 0
  · simp [idle]
  · cases found : maps.pidLast.get? current.tgid cpu with
    | none => simp [idle, found, Task.struct]
    | some last =>
        have present := ((PerCpuHashMap.get?_eq_some_iff _ _ _ _).mp found).1
        simp [idle, found, Task.struct, PerCpuHashMap.insert, present]

/-- Both accounting programs credit the time since the `PID_LAST` slot of their CPU. -/
theorem creditOf_switch (maps : Maps) (now : UInt64) (cpu : Nat) (prev next : Task) :
    creditOf maps (.schedSwitch now cpu (some prev.struct) (some next.struct)) =
      if prev.tgid = 0 then none
      else (maps.pidLast.get? prev.tgid cpu).map fun last => (prev.tgid, now - last) := by
  simp only [creditOf, prev.struct_counted_iff]
  by_cases idle : prev.tgid = 0 <;> simp [idle, Task.struct]

theorem creditOf_tick (maps : Maps) (now : UInt64) (cpu : Nat) (current : Task) :
    creditOf maps (.sampleTick now cpu current.struct) =
      if current.tgid = 0 then none
      else (maps.pidLast.get? current.tgid cpu).map fun last => (current.tgid, now - last) := by
  simp only [creditOf, current.struct_skipped_iff]
  by_cases idle : current.tgid = 0 <;> simp [idle, Task.struct]

/-- `PID_TIMES` after an event that reaps no process, read on any CPU. -/
theorem read_step {maps : Maps} {event : Event} (room : maps.pidTimes.keys.length < maxKeys)
    (keeps : reapedBy event = none) (tgid core : Nat) :
    (step maps event).pidTimes.read tgid core =
      match creditOf maps event with
      | some credit =>
          if tgid = credit.1 ∧ core = event.cpu then
            maps.pidTimes.read tgid core + credit.2
          else maps.pidTimes.read tgid core
      | none => maps.pidTimes.read tgid core := by
  rw [step_pidTimes, keeps]
  cases creditOf maps event with
  | none => rfl
  | some credit =>
      simp only [read_creditPid room]
      by_cases here : tgid = credit.1 ∧ core = event.cpu <;> simp [here]

end ScaphandreFormal.Ebpf
