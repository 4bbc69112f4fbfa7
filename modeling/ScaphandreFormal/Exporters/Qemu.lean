import ScaphandreFormal.Foundation.Trace
import ScaphandreFormal.Foundation.Fallible
import ScaphandreFormal.Sensors.HostEnergy
import ScaphandreFormal.Sensors.TrackerInvariant

/-!
# The counters of virtual machines

`QemuExporter` writes a file `energy_uj` for each virtual machine, which the guest
reads as the counter of a powercap domain.  What it adds at each iteration is the
power of the virtual machine, whatever the time since the last iteration, and the
first addition only creates the file.  The counter measures energy just where the two
agree up to rounding.
-/

namespace ScaphandreFormal.Exporters

open Foundation Sensors

/-- The fields of `IProcess` that this exporter reads beside the pid. -/
structure VmTrace where
  cmdline : List Text
  cpuUsagePercentage : ExactFloat

/-- The entry of a process in `sysinfo`. -/
structure SysinfoProcess where
  status : ProcessStatus
  cmd : List Text

/-- How the exporter can panic once its file operations succeed. -/
inductive QemuPanic where
  | cmdlineUnwrap
  | parseUnwrap
  | overflow
  deriving DecidableEq, Repr

/-- Files by path.  Folders are created where they are missing and decide nothing else. -/
abbrev Files := Text → Option Text

namespace Files

def write (files : Files) (path text : Text) : Files :=
  fun other => if other = path then some text else files other

/-- `add_or_create`. -/
def addOrCreate (path : Text) (ujValue : Nat) (files : Files) : Except QemuPanic Files :=
  let filePath := path ++ "/energy_uj".toList
  match files filePath with
  | some file =>
      match parseU64 file with
      | some content =>
          if content + ujValue ≤ u64Max then
            .ok (files.write filePath (toText (content + ujValue)))
          else .error .overflow
      | none => .error .parseUnwrap
  | none => .ok (files.write filePath (toText 0))

end Files

/-- The exporter and the files it writes. -/
structure QemuExporter where
  topology : Topology ExactFloat VmTrace
  files : Files

/-- What one iteration meets: what `refresh` reads, the clock when the power is asked for,
and the process table. -/
structure Iteration where
  input : RefreshInput ExactFloat VmTrace
  now : Nat
  sysinfo : Nat → Option SysinfoProcess

/-- The loop of `run`: iterations, and now and then the cleaner. -/
inductive QemuEvent where
  | iterate (iteration : Iteration)
  | clean (sysinfo : Nat → Option SysinfoProcess)

/-- What an iteration accounts for: a process, the name of its virtual machine and the
value computed for it. -/
structure Account where
  pid : Nat
  vmName : Text
  ujToAdd : ExactFloat

namespace QemuExporter

def getVmNameFromCmdline : List Text → Text
  | [] => []
  | elmt :: rest =>
      if "guest=".toList <+: elmt then
        ((elmt.splitOn '=').getD 1 []).splitOn ',' |>.headD []
      else getVmNameFromCmdline rest

def filterQemuVmProcesses (processes : List (List (ProcessRecord VmTrace))) :
    List (List (ProcessRecord VmTrace)) :=
  processes.filter fun vecp =>
    match vecp.head? with
    | some pr => pr.process.trace.cmdline.any fun x => "qemu-system".toList <:+: x
    | none => false

def getProcessCpuUsagePercentage (topology : Topology ExactFloat VmTrace) (pid : Nat) :
    Option ExactFloat :=
  (topology.procTracker.getProcessLastRecord pid).map fun record =>
    Float64.div record.process.trace.cpuUsagePercentage
      (Float64.ofU64 topology.procTracker.nbCores)

/-- The body of the loop over the processes up to the update of the file. -/
def account (topology : Topology ExactFloat VmTrace) (sysinfo : Nat → Option SysinfoProcess)
    (topoEnergy : Record Text) (qp : List (ProcessRecord VmTrace)) :
    Except QemuPanic (Option Account) :=
  match qp with
  | last :: _ :: _ :: _ =>
      match sysinfo last.process.pid with
      | some process =>
          .ok ((getProcessCpuUsagePercentage topology last.process.pid).map fun ratio =>
            { pid := last.process.pid
              vmName := getVmNameFromCmdline process.cmd
              ujToAdd := Float64.div (Float64.mul ratio (floatOrZero (some topoEnergy)))
                (Float64.ofU64 100) })
      | none => .error .cmdlineUnwrap
  | _ => .ok none

def completePath (path vmName : Text) : Text :=
  path ++ "/".toList ++ vmName ++ "/intel-rapl:0".toList

/-- One turn of the loop over the processes. -/
def expose (path : Text) (topology : Topology ExactFloat VmTrace)
    (sysinfo : Nat → Option SysinfoProcess) (topoEnergy : Record Text) (files : Files)
    (qp : List (ProcessRecord VmTrace)) : Except QemuPanic Files :=
  (account topology sysinfo topoEnergy qp).bind fun accounted =>
    match accounted with
    | some account =>
        files.addOrCreate (completePath path account.vmName) (Float64.asU64 account.ujToAdd)
    | none => .ok files

def qemuProcesses (topology : Topology ExactFloat VmTrace)
    (sysinfo : Nat → Option SysinfoProcess) : List (List (ProcessRecord VmTrace)) :=
  filterQemuVmProcesses
    (topology.procTracker.getAliveProcesses fun pid => (sysinfo pid).map SysinfoProcess.status)

def iterate (path : Text) (iteration : Iteration) (exporter : QemuExporter) :
    Except QemuPanic QemuExporter :=
  let topology := exporter.topology.refresh iteration.input
  match topology.getRecordsDiffPowerMicrowatts iteration.now with
  | some topoEnergy =>
      ((qemuProcesses topology iteration.sysinfo).foldlM
        (expose path topology iteration.sysinfo topoEnergy) exporter.files).map fun files =>
          ⟨topology, files⟩
  | none => .ok ⟨topology, exporter.files⟩

/-- One turn of the loop of `run`. -/
def step (path : Text) (exporter : QemuExporter) : QemuEvent → Except QemuPanic QemuExporter
  | .iterate iteration => exporter.iterate path iteration
  | .clean sysinfo =>
      .ok { exporter with
        topology := { exporter.topology with
          procTracker := exporter.topology.procTracker.cleanTerminatedProcessRecordsVectors
            fun pid => (sysinfo pid).map SysinfoProcess.status } }

/-! ## What an iteration accounts for -/

/-- The accounts of an event, in the order of the loop. -/
def accounts (exporter : QemuExporter) : QemuEvent → List Account
  | .iterate iteration =>
      let topology := exporter.topology.refresh iteration.input
      match topology.getRecordsDiffPowerMicrowatts iteration.now with
      | some topoEnergy => (qemuProcesses topology iteration.sysinfo).filterMap fun qp =>
          (account topology iteration.sysinfo topoEnergy qp).toOption.join
      | none => []
  | .clean _ => []

/-- The seconds between the last two energy readings. -/
def interval (exporter : QemuExporter) : QemuEvent → ℚ
  | .iterate iteration =>
      match lastTwo (exporter.topology.refresh iteration.input).recordBuffer with
      | some (previous, last) => ((last.timestamp : ℚ) - previous.timestamp) / 10 ^ 9
      | none => 0
  | .clean _ => 0

/-- The power of the host that an event finds, in microwatts. -/
def hostPower (exporter : QemuExporter) : QemuEvent → Nat
  | .iterate iteration => valueOrZero
      ((exporter.topology.refresh iteration.input).getRecordsDiffPowerMicrowatts iteration.now)
  | .clean _ => 0

/-- The share of a process in the processor time, in percent. -/
def cpuRatio (pid : Nat) (exporter : QemuExporter) : QemuEvent → ExactFloat
  | .iterate iteration => (getProcessCpuUsagePercentage
      (exporter.topology.refresh iteration.input) pid).getD (.num 0)
  | .clean _ => .num 0

/-- The microjoules of a process in an event: what its part of the host's power makes in the
interval, if the event accounts for it. -/
def owed (pid : Nat) (vmName : Text) (exporter : QemuExporter) (event : QemuEvent) : Nat :=
  (((exporter.accounts event).filter fun account =>
    account.pid = pid ∧ account.vmName = vmName).map fun _ =>
      (exporter.hostPower event * (exporter.cpuRatio pid event).number / 100 *
        exporter.interval event).floor.toNat).sum

/-- The part of the host's power that falls to a process, in microwatts. -/
def attributedPower (pid : Nat) (exporter : QemuExporter) (event : QemuEvent) : ExactFloat :=
  Float64.div (Float64.mul (exporter.cpuRatio pid event)
    (Float64.ofU64 (exporter.hostPower event))) (Float64.ofU64 100)

/-- The powers of the processes that the event accounts for under the name of a virtual
machine. -/
def shares (vmName : Text) (exporter : QemuExporter) (event : QemuEvent) : List ExactFloat :=
  ((exporter.accounts event).filter fun account => account.vmName = vmName).map fun account =>
    exporter.attributedPower account.pid event

/-- What the values add to a file: all of them, but for the first if it creates the file. -/
def added (present : Bool) (shares : List ExactFloat) : Nat :=
  ((if present then shares else shares.tail).map Float64.asU64).sum

def energyFile (path vmName : Text) : Text := completePath path vmName ++ "/energy_uj".toList

/-- The number in the file of a virtual machine, zero before there is one. -/
def content (path vmName : Text) (files : Files) : Nat :=
  ((files (energyFile path vmName)).bind parseU64).getD 0

theorem energyFile_injective {path first second : Text}
    (same : energyFile path first = energyFile path second) : first = second := by
  simpa [energyFile, completePath] using same

/-- What an update that succeeds does: it creates the file with zero or adds to its
number. -/
theorem addOrCreate_cases {path name : Text} {value : Nat} {files next : Files}
    (succeeds : files.addOrCreate (completePath path name) value = .ok next) :
    (files (energyFile path name) = none ∧
        next = files.write (energyFile path name) (toText 0)) ∨
      ∃ file old, files (energyFile path name) = some file ∧ parseU64 file = some old ∧
        old + value ≤ u64Max ∧
        next = files.write (energyFile path name) (toText (old + value)) := by
  unfold Files.addOrCreate at succeeds
  change (match files (energyFile path name) with | some _ => _ | none => _) = _ at succeeds
  cases found : files (energyFile path name) with
  | none =>
      rw [found] at succeeds
      cases succeeds
      exact .inl ⟨rfl, rfl⟩
  | some file =>
      simp only [found] at succeeds
      cases parsed : parseU64 file with
      | none => simp [parsed] at succeeds
      | some old =>
          simp only [parsed] at succeeds
          split at succeeds
          · rename_i fits
            cases succeeds
            exact .inr ⟨file, old, rfl, parsed, fits, rfl⟩
          · cases succeeds

theorem write_same (files : Files) (path text : Text) : files.write path text path = some text :=
  if_pos rfl

/-- An account adds its value to the file of its virtual machine, if there is one. -/
theorem content_addOrCreate {path name : Text} {value : Nat} {files next : Files}
    (succeeds : files.addOrCreate (completePath path name) value = .ok next) :
    content path name next =
      content path name files + if (files (energyFile path name)).isSome then value else 0 := by
  obtain ⟨absent, rfl⟩ | ⟨file, old, found, parsed, fits, rfl⟩ := addOrCreate_cases succeeds
  · simp [content, absent, write_same, parseU64_toText]
  · simp [content, found, parsed, write_same, parseU64_toText fits]

theorem isSome_addOrCreate {path name : Text} {value : Nat} {files next : Files}
    (succeeds : files.addOrCreate (completePath path name) value = .ok next) :
    (next (energyFile path name)).isSome = true := by
  obtain ⟨_, rfl⟩ | ⟨_, _, _, _, _, rfl⟩ := addOrCreate_cases succeeds
  · rw [write_same]; rfl
  · rw [write_same]; rfl

/-- The files of the other virtual machines stay as they are. -/
theorem addOrCreate_other {path name other : Text} {value : Nat} {files next : Files}
    (succeeds : files.addOrCreate (completePath path name) value = .ok next)
    (differs : other ≠ name) :
    next (energyFile path other) = files (energyFile path other) := by
  have apart : energyFile path other ≠ energyFile path name :=
    fun same => differs (energyFile_injective same)
  obtain ⟨_, rfl⟩ | ⟨_, _, _, _, _, rfl⟩ := addOrCreate_cases succeeds
  · exact if_neg apart
  · exact if_neg apart

/-! ## What an iteration does to the file of a virtual machine -/

/-- The update of an account. -/
def update (path : Text) (files : Files) (account : Account) : Except QemuPanic Files :=
  files.addOrCreate (completePath path account.vmName) (Float64.asU64 account.ujToAdd)

theorem account_eq_ok {topology : Topology ExactFloat VmTrace}
    {sysinfo : Nat → Option SysinfoProcess} {topoEnergy : Record Text}
    {qp : List (ProcessRecord VmTrace)} {accounted : Account}
    (found : account topology sysinfo topoEnergy qp = .ok (some accounted)) :
    ∃ ratio, getProcessCpuUsagePercentage topology accounted.pid = some ratio ∧
      accounted.ujToAdd = Float64.div (Float64.mul ratio (floatOrZero (some topoEnergy)))
        (Float64.ofU64 100) := by
  unfold account at found
  split at found
  · split at found
    · obtain ⟨ratio, isRatio, rfl⟩ := Option.map_eq_some_iff.mp (Except.ok.inj found)
      exact ⟨ratio, isRatio, rfl⟩
    · cases found
  · cases found

/-- The value of every account is the part of the host's power that falls to its process. -/
theorem ujToAdd_eq {exporter : QemuExporter} {event : QemuEvent} {accounted : Account}
    (member : accounted ∈ exporter.accounts event) :
    accounted.ujToAdd = exporter.attributedPower accounted.pid event := by
  cases event with
  | clean sysinfo => cases member
  | iterate iteration =>
      simp only [accounts] at member
      split at member
      · rename_i topoEnergy power
        obtain ⟨qp, _, isAccount⟩ := List.mem_filterMap.mp member
        have found : account (exporter.topology.refresh iteration.input) iteration.sysinfo
            topoEnergy qp = .ok (some accounted) := by
          cases outcome : account (exporter.topology.refresh iteration.input) iteration.sysinfo
              topoEnergy qp with
          | error panic => simp [outcome, Except.toOption] at isAccount
          | ok result => simpa [outcome, Except.toOption] using isAccount
        obtain ⟨ratio, isRatio, value⟩ := account_eq_ok found
        rw [value, attributedPower, cpuRatio, hostPower, isRatio, power]
        rfl
      · cases member

/-- The accounts under a name add their values to its file. -/
theorem content_updates {path vmName : Text} {accounts : List Account} {files next : Files}
    (succeeds : accounts.foldlM (update path) files = .ok next) :
    content path vmName next = content path vmName files +
      added (files (energyFile path vmName)).isSome
        ((accounts.filter fun account => account.vmName = vmName).map Account.ujToAdd) := by
  induction accounts generalizing files with
  | nil =>
      cases succeeds
      simp [added]
  | cons account rest ih =>
      obtain ⟨middle, here, later⟩ := foldlM_cons_eq_ok succeeds
      by_cases same : account.vmName = vmName
      · subst same
        rw [ih later, content_addOrCreate here, isSome_addOrCreate here]
        cases (files (energyFile path account.vmName)).isSome <;>
          simp [added, Nat.add_assoc]
      · have kept := addOrCreate_other here (Ne.symm same)
        rw [ih later, kept]
        simp [content, kept, same]

/-- The loop over the processes makes the updates of the accounts. -/
theorem updates_of_foldlM {path : Text} {topology : Topology ExactFloat VmTrace}
    {sysinfo : Nat → Option SysinfoProcess} {topoEnergy : Record Text}
    {processes : List (List (ProcessRecord VmTrace))} {files next : Files}
    (succeeds : processes.foldlM (expose path topology sysinfo topoEnergy) files = .ok next) :
    (processes.filterMap fun qp => (account topology sysinfo topoEnergy qp).toOption.join).foldlM
      (update path) files = .ok next := by
  induction processes generalizing files with
  | nil => exact succeeds
  | cons qp rest ih =>
      obtain ⟨middle, here, later⟩ := foldlM_cons_eq_ok succeeds
      obtain ⟨accounted, found, written⟩ := bind_eq_ok here
      cases accounted with
      | none =>
          cases written
          rw [List.filterMap_cons_none (by rw [found]; rfl)]
          exact ih later
      | some account =>
          rw [List.filterMap_cons_some (by rw [found]; rfl), List.foldlM_cons]
          change (update path files account).bind _ = _
          rw [show update path files account = .ok middle from written]
          exact ih later

/-- A turn of `run` adds to the file of a virtual machine what its accounts amount to. -/
theorem content_step {path vmName : Text} {exporter next : QemuExporter} {event : QemuEvent}
    (succeeds : exporter.step path event = .ok next) :
    content path vmName next.files = content path vmName exporter.files +
      added (exporter.files (energyFile path vmName)).isSome (exporter.shares vmName event) := by
  have same : exporter.shares vmName event =
      ((exporter.accounts event).filter fun account => account.vmName = vmName).map
        Account.ujToAdd :=
    List.map_congr_left fun accounted member =>
      (ujToAdd_eq (List.mem_filter.mp member).1).symm
  rw [same]
  cases event with
  | clean sysinfo =>
      cases succeeds
      simp [accounts, added]
  | iterate iteration =>
      simp only [step, iterate] at succeeds
      simp only [accounts]
      split at succeeds
      · obtain ⟨files, written, rfl⟩ := map_eq_ok succeeds
        exact content_updates (updates_of_foldlM written)
      · cases succeeds
        simp [added]

/-! ## Whole runs -/

/-- The exporter during a run, with the microjoules of a process so far. -/
structure Metering where
  exporter : QemuExporter
  microjoules : Nat

/-- A turn of `run`; after a panic nothing happens. -/
def meter (path : Text) (pid : Nat) (vmName : Text) (state : Except QemuPanic Metering)
    (event : QemuEvent) : Except QemuPanic Metering :=
  state.bind fun metering => (metering.exporter.step path event).map fun exporter =>
    ⟨exporter, metering.microjoules + metering.exporter.owed pid vmName event⟩

/-- The file has grown by the energy of the process since the start. -/
def MeasuresEnergy (path vmName : Text) (start : QemuExporter) :
    Except QemuPanic Metering → Prop
  | .ok metering => content path vmName metering.exporter.files =
      content path vmName start.files + metering.microjoules
  | .error _ => True

instance (path vmName : Text) (start : QemuExporter) :
    ∀ state : Except QemuPanic Metering, Decidable (MeasuresEnergy path vmName start state)
  | .ok _ => inferInstanceAs (Decidable (_ = _))
  | .error _ => inferInstanceAs (Decidable True)

/-- If the event gets through, the values that it adds to the file, cut to whole numbers, make
the energy of the process in the interval. -/
def Metered (path : Text) (pid : Nat) (vmName : Text) :
    Except QemuPanic Metering → QemuEvent → Prop
  | .ok ⟨exporter, _⟩, event =>
      (∃ next, exporter.step path event = .ok next) →
        added (exporter.files (energyFile path vmName)).isSome
          (exporter.shares vmName event) = exporter.owed pid vmName event
  | .error _, _ => True

/-- Over a whole run the counter of a virtual machine measures its energy just when every
event of the run adds the energy of its interval. -/
theorem measuresEnergy_iff_metered (path : Text) (pid : Nat) (vmName : Text)
    (start : QemuExporter) (events : List QemuEvent) :
    Always (meter path pid vmName) (MeasuresEnergy path vmName start) (.ok ⟨start, 0⟩) events ↔
      Meets (meter path pid vmName) (Metered path pid vmName) (.ok ⟨start, 0⟩) events := by
  refine always_iff_meets ?_ rfl
  intro state event measures
  cases state with
  | error panic => exact Iff.rfl
  | ok metering =>
      obtain ⟨exporter, microjoules⟩ := metering
      simp only [MeasuresEnergy] at measures
      cases taken : exporter.step path event with
      | error panic => simp [Metered, meter, Except.bind, MeasuresEnergy, taken, Except.map]
      | ok next =>
          have grown := @content_step path vmName _ _ _ taken
          simp only [Metered, meter, Except.bind, MeasuresEnergy, taken, Except.map]
          constructor
          · intro whole _
            omega
          · intro metered
            have := metered ⟨next, rfl⟩
            omega

/-- For a process that is alone under the name of its virtual machine: its power and its
energy are the same whole number, or both are lost when the file is created. -/
theorem metered_iff_of_alone {path vmName : Text} {exporter : QemuExporter} {event : QemuEvent}
    {microjoules pid : Nat} {value : ExactFloat}
    (alone : ((exporter.accounts event).filter fun account => account.vmName = vmName) =
      [⟨pid, vmName, value⟩])
    (succeeds : ∃ next, exporter.step path event = .ok next) :
    Metered path pid vmName (.ok ⟨exporter, microjoules⟩) event ↔
      (exporter.hostPower event * (exporter.cpuRatio pid event).number / 100 *
          exporter.interval event).floor.toNat =
        if (exporter.files (energyFile path vmName)).isSome then
          Float64.asU64 (exporter.attributedPower pid event) else 0 := by
  have own : ((exporter.accounts event).filter fun account =>
      account.pid = pid ∧ account.vmName = vmName) = [⟨pid, vmName, value⟩] := by
    simp only [Bool.decide_and, ← List.filter_filter, alone]
    simp
  simp only [Metered, succeeds, true_imp_iff, owed, own, shares, alone, added]
  cases (exporter.files (energyFile path vmName)).isSome <;> simp [eq_comm]

/-- A host with one core that has not been read yet. -/
def hypervisor (files : Files) : QemuExporter where
  topology :=
    { sockets := [⟨0, [], [], 1, [], [⟨0, [], 1⟩], 0⟩]
      procTracker := .empty 1 5
      recordBuffer := []
      bufferMaxKbytes := 1
      activationIdleBuffer := fun _ => []
      cpuTimeBuffer := [] }
  files := files

def vmCommand : List Text :=
  ["/usr/bin/qemu-system-x86_64".toList, "-name".toList, "guest=vm1,debug-threads=on".toList]

/-- Second `n` of a steady load: the host uses 8 microwatts, all of it for the process 7 of a
virtual machine. -/
def steadyVm (n : Nat) : QemuEvent :=
  .iterate
    { input :=
        { now := n * 10 ^ 9
          drained := []
          socketReading := fun _ =>
            ⟨some ⟨n * 10 ^ 9, toText (8 * n), .microJoule⟩, fun _ => none⟩
          coreReading := fun _ _ => ⟨n * 10 ^ 9, 0, n, n, 5 * n, 0, 10 * n, 0, .num 0, .num 0, n⟩
          processes := [(n * 10 ^ 9, ⟨7, "/usr/bin/qemu-system-x86_64".toList, 0, 0, none,
            0, 0, 0, 0, 0, 0, ⟨vmCommand, .num 100⟩⟩)]
          cpuTime := none
          energy := some ⟨n * 10 ^ 9, toText (8 * n), .microJoule⟩ }
      now := n * 10 ^ 9
      sysinfo := fun pid => if pid = 7 then some ⟨.run, vmCommand⟩ else none }

/-- The run of a steady load with the iterations at the given seconds. -/
def steadyRun (files : Files) (seconds : List Nat) : Except QemuPanic Metering :=
  run (meter [] 7 "vm1".toList) (.ok ⟨hypervisor files, 0⟩) (seconds.map steadyVm)

/-- A file from an earlier run, read each second. -/
example : MeasuresEnergy [] "vm1".toList (hypervisor fun _ => some (toText 50))
    (steadyRun (fun _ => some (toText 50)) [1, 2, 3, 4]) := by
  decide +kernel

/-- At the five seconds of `run` the counter gains 8 microjoules an iteration instead of 40;
and without a file the first microjoules are lost at any interval. -/
theorem not_measuresEnergy_of_five_seconds :
    (¬ Always (meter [] 7 "vm1".toList)
      (MeasuresEnergy [] "vm1".toList (hypervisor fun _ => some (toText 50)))
      (.ok ⟨hypervisor fun _ => some (toText 50), 0⟩) ([5, 10, 15, 20].map steadyVm)) ∧
    ¬ Always (meter [] 7 "vm1".toList)
      (MeasuresEnergy [] "vm1".toList (hypervisor fun _ => none))
      (.ok ⟨hypervisor fun _ => none, 0⟩) ([1, 2, 3].map steadyVm) := by
  have five : ¬ MeasuresEnergy [] "vm1".toList (hypervisor fun _ => some (toText 50))
      (steadyRun (fun _ => some (toText 50)) [5, 10, 15, 20]) := by
    decide +kernel
  have created : ¬ MeasuresEnergy [] "vm1".toList (hypervisor fun _ => none)
      (steadyRun (fun _ => none) [1, 2, 3]) := by
    decide +kernel
  constructor
  · apply not_always_of_run
    exact five
  · apply not_always_of_run
    exact created

end QemuExporter

/-! ## A file by itself -/

namespace Files

/-- The file of a folder. -/
def energyUj (path : Text) : Text := path ++ "/energy_uj".toList

theorem addOrCreate_of_present {path : Text} {files : Files} {old value : Nat}
    (present : files (energyUj path) = some (toText old)) (fits : old + value ≤ u64Max) :
    files.addOrCreate path value = .ok (files.write (energyUj path) (toText (old + value))) := by
  have parsed : parseU64 (toText old) = some old := parseU64_toText (by omega)
  unfold addOrCreate
  change (match files (energyUj path) with | some _ => _ | none => _) = _
  rw [present]
  simp only [parsed, if_pos fits]
  rfl

/-- The value is not added to the file that is created for it. -/
theorem addOrCreate_of_absent {path : Text} {files : Files}
    (absent : files (energyUj path) = none) (value : Nat) :
    files.addOrCreate path value = .ok (files.write (energyUj path) (toText 0)) := by
  unfold addOrCreate
  change (match files (energyUj path) with | some _ => _ | none => _) = _
  rw [absent]
  rfl

/-- The file after calls with these values. -/
def addAll (path : Text) (values : List Nat) (files : Files) : Except QemuPanic Files :=
  values.foldlM (fun files value => files.addOrCreate path value) files

/-- A file that is there accumulates. -/
theorem addAll_of_present {path : Text} {files : Files} {old : Nat} {values : List Nat}
    (present : files (energyUj path) = some (toText old))
    (fits : old + values.sum ≤ u64Max) :
    ∃ final, files.addAll path values = .ok final ∧
      final (energyUj path) = some (toText (old + values.sum)) := by
  induction values generalizing files old with
  | nil => exact ⟨files, rfl, present⟩
  | cons value rest ih =>
      rw [List.sum_cons, ← Nat.add_assoc] at fits ⊢
      obtain ⟨final, succeeds, holds⟩ :=
        ih (QemuExporter.write_same files (energyUj path) (toText (old + value))) fits
      refine ⟨final, ?_, holds⟩
      rw [addAll, List.foldlM_cons, addOrCreate_of_present present (by omega)]
      exact succeeds

/-- The file holds what it held and the sum of the values after any number of calls, just when
it was there before the first or the first value is zero. -/
theorem accumulates_iff_present_or_zero (path : Text) (files : Files) (initial : Option Nat)
    (start : files (energyUj path) = initial.map toText) (value : Nat) (values : List Nat)
    (fits : initial.getD 0 + (value :: values).sum ≤ u64Max) :
    ∃ final, files.addAll path (value :: values) = .ok final ∧
      (final (energyUj path) = some (toText (initial.getD 0 + (value :: values).sum)) ↔
        initial.isSome ∨ value = 0) := by
  cases initial with
  | some old =>
      obtain ⟨final, succeeds, holds⟩ := addAll_of_present start fits
      exact ⟨final, succeeds, iff_of_true holds (Or.inl rfl)⟩
  | none =>
      rw [Option.getD_none, Nat.zero_add, List.sum_cons] at fits ⊢
      have later : 0 + values.sum ≤ u64Max := by omega
      obtain ⟨final, succeeds, holds⟩ :=
        addAll_of_present (QemuExporter.write_same files (energyUj path) (toText 0)) later
      refine ⟨final, ?_, ?_⟩
      · rw [addAll, List.foldlM_cons, addOrCreate_of_absent start]
        exact succeeds
      · rw [holds, Option.some.injEq]
        constructor
        · intro same
          have sums := toText_injective same
          exact Or.inr (by omega)
        · rintro (impossible | rfl)
          · cases impossible
          · rfl

theorem accumulates_iff_present_or_zero_three_values :
    ∃ final, Files.addAll "vm".toList [3, 4, 5] (fun _ => some "30".toList) = .ok final ∧
      (final (energyUj "vm".toList) = some (toText 42) ↔ (some 30).isSome ∨ 3 = 0) :=
  accumulates_iff_present_or_zero "vm".toList (fun _ => some "30".toList) (some 30)
    (by decide +kernel) 3 [4, 5] (by decide)

/-- The three microjoules of the first call are lost. -/
theorem not_accumulates_of_absent :
    ∃ final, Files.addAll "vm".toList [3, 4] (fun _ => none) = .ok final ∧
      final (energyUj "vm".toList) = some (toText 4) ∧
      final (energyUj "vm".toList) ≠ some (toText 7) := by
  refine ⟨_, rfl, ?_⟩
  decide +kernel

end Files

end ScaphandreFormal.Exporters
