import ScaphandreFormal.Foundation.Trace
import ScaphandreFormal.Sensors.Topology
import Mathlib.Data.List.Induction

/-!
# The energy of the host

The host has no counter of its own.  Its record is the psys counter when that
can be read, else the sum of the package counters and the dram counters of all
sockets, where a counter that cannot be read or parsed is left out.  The host
power compares the last two such records, whatever they were summed from.
-/

namespace ScaphandreFormal.Sensors

open Foundation Ebpf

/-- A counter the host record may be taken from, by position of the socket and domain. -/
inductive Source where
  | psys
  | package (socket : Nat)
  | domain (socket domain : Nat)
  deriving DecidableEq, Repr

/-- What reading an `energy_uj` file can give: nothing, a text that is no number, or the
counter, a `u64`, as the kernel prints it. -/
inductive EnergyFile where
  | unreadable
  | garbled (content : Text) (unparsable : parseI128 (trim content) = none)
  | counter (microjoules : Nat) (fits : microjoules ≤ u64Max)

namespace EnergyFile

/-- `fs::read_to_string`. -/
def content : EnergyFile → Option Text
  | .unreadable => none
  | .garbled content _ => some content
  | .counter microjoules _ => some (toText microjoules ++ ['\n'])

/-- The counter, if it could be read and parsed. -/
def value? : EnergyFile → Option Nat
  | .counter microjoules _ => some microjoules
  | _ => none

/-- The value that the loop of `read_record` adds for a file. -/
def added (file : EnergyFile) : Int :=
  (file.content.bind fun text => parseI128 (trim text)).getD 0

theorem added_eq (file : EnergyFile) : file.added = (file.value?.getD 0 : Nat) := by
  cases file with
  | unreadable => rfl
  | garbled content unparsable => simp [added, EnergyFile.content, unparsable, value?]
  | counter microjoules fits => simp [added, EnergyFile.content, parseI128_toText, value?]

end EnergyFile

/-- The files behind the host record as one refresh finds them.  A machine without a psys
zone has no psys file to read. -/
structure HostReading where
  now : Nat
  file : Source → EnergyFile

/-- One refresh, with the files that `read_record` of the topology opens. -/
structure HostRefresh (F Trace : Type) where
  input : RefreshInput F Trace
  reading : HostReading

variable {F Trace : Type} [Float64 F]

namespace Topology

/-! ## The record -/

/-- The domain names of each socket. -/
def layout (topology : Topology F Trace) : List (List Text) :=
  topology.sockets.map fun socket => socket.domains.map Domain.name

def dramName : Text := "dram".toList

/-- The counters of one socket that are summed: the package, and the domains named `dram`. -/
def socketSources (socket : Nat) (names : List Text) : List Source :=
  .package socket ::
    (names.zipIdx.filter fun named => named.1 = dramName).map fun named =>
      .domain socket named.2

/-- The counters summed without psys, in the order of the loops. -/
def energySources (topology : Topology F Trace) : List Source :=
  topology.layout.zipIdx.flatMap fun socket => socketSources socket.2 socket.1

/-- `read_record` of the topology, which always returns a record. -/
def readRecord (topology : Topology F Trace) (reading : HostReading) : Record Text :=
  match (reading.file .psys).content with
  | some text => ⟨reading.now, text, .microJoule⟩
  | none =>
      let total := (topology.energySources.map fun source => (reading.file source).added).sum
      ⟨reading.now, intToText total, .microJoule⟩

/-- A refresh that takes the host record from the files. -/
def refreshHost (topology : Topology F Trace) (event : HostRefresh F Trace) :
    Topology F Trace :=
  topology.refresh { event.input with energy := some (topology.readRecord event.reading) }

/-! ## The power -/

/-- The energy between the last two records; nothing when it seems negative or a value does
not parse. -/
def energyDiff (topology : Topology F Trace) : Option Nat :=
  match lastTwo topology.recordBuffer with
  | some (previous, last) =>
      match parseU128 (trim previous.value), parseU128 (trim last.value) with
      | some previousMicrojoules, some lastMicrojoules =>
          if lastMicrojoules < previousMicrojoules then none
          else some (lastMicrojoules - previousMicrojoules)
      | _, _ => none
  | none => none

/-- The sum over the sockets in `get_idle_power_microwatts` and its sibling, in `u64`. -/
def totalEstimate (estimate : CPUSocket F → Option (Record Text)) (topology : Topology F Trace) :
    Nat :=
  (topology.sockets.map fun socket => valueOrZero (estimate socket)).sum % 2 ^ 64

def getIdlePowerMicrowatts (now : Nat) (topology : Topology F Trace) : Option (Record Text) :=
  some ⟨now, toText (topology.totalEstimate (·.getIdlePowerMicrowatts now)), .microWatt⟩

def getActivationPowerMicrowatts (now : Nat) (topology : Topology F Trace) :
    Option (Record Text) :=
  some ⟨now, toText (topology.totalEstimate (·.getActivationPowerMicrowatts now)), .microWatt⟩

def getBackgroundPowerMicrowatts (now : Nat) (topology : Topology F Trace) :
    Option (Record Text) :=
  let idle := valueOrZero (topology.getIdlePowerMicrowatts now)
  let activation := valueOrZero (topology.getActivationPowerMicrowatts now)
  some ⟨now, toText (max idle activation), .microWatt⟩

def getRecordsDiffPowerMicrowatts (now : Nat) (topology : Topology F Trace) :
    Option (Record Text) :=
  match lastTwo topology.recordBuffer, topology.energyDiff with
  | some (previous, last), some microjoules =>
      let background := valueOrZero (topology.getBackgroundPowerMicrowatts now)
      let timeDiff : F := Float64.sub (Float64.asSecsF64 last.timestamp)
        (Float64.asSecsF64 previous.timestamp)
      let microwatts : F := Float64.div (Float64.ofU64 microjoules) timeDiff
      some ⟨last.timestamp, toText (Float64.asU64 microwatts - background), .microWatt⟩
  | _, _ => none

/-- A power is returned just when there is an energy difference to base it on. -/
theorem isSome_getRecordsDiffPowerMicrowatts (now : Nat) (topology : Topology F Trace) :
    (topology.getRecordsDiffPowerMicrowatts now).isSome ↔ topology.energyDiff.isSome := by
  unfold getRecordsDiffPowerMicrowatts
  cases pair : lastTwo topology.recordBuffer with
  | none => simp [energyDiff, pair]
  | some records =>
      cases topology.energyDiff with
      | none => simp
      | some microjoules => simp

/-! ## What a refresh does to the record buffer -/

/-- The topology as `Topology::new` builds it: no record yet, and one kilobyte for them. -/
def IsNew (topology : Topology F Trace) : Prop :=
  topology.recordBuffer = [] ∧ topology.bufferMaxKbytes = 1

theorem bufferMaxKbytes_refresh (topology : Topology F Trace) (input : RefreshInput F Trace) :
    (topology.refresh input).bufferMaxKbytes = topology.bufferMaxKbytes := by
  unfold refresh refreshRecord refreshCpuTimeRecord
  cases input.cpuTime with
  | none => rfl
  | some map => rfl

theorem recordBuffer_refresh (topology : Topology F Trace) (input : RefreshInput F Trace) :
    (topology.refresh input).recordBuffer =
      (pushRecord topology.recordBuffer input.energy).drop
        (hostExcess (maxBytes topology.bufferMaxKbytes)
          (pushRecord topology.recordBuffer input.energy).length) := by
  unfold refresh refreshRecord refreshCpuTimeRecord
  cases input.cpuTime with
  | none => rfl
  | some map => rfl

/-- A buffer of one kilobyte keeps its last two records. -/
theorem hostExcess_le (count : Nat) : hostExcess (maxBytes 1) count ≤ count - 2 := by
  unfold hostExcess
  simp only [show maxBytes 1 = 1000 from rfl, show sizeOfRecord = 48 from rfl]
  split
  · split
    · omega
    · exact Nat.zero_le _
  · exact Nat.zero_le _

section Run

variable {topology : Topology F Trace}

theorem recordBuffer_refreshHost (small : topology.bufferMaxKbytes = 1)
    (event : HostRefresh F Trace) :
    (topology.refreshHost event).recordBuffer =
      (topology.recordBuffer ++ [topology.readRecord event.reading]).drop
        (hostExcess (maxBytes 1) (topology.recordBuffer.length + 1)) := by
  rw [refreshHost, recordBuffer_refresh, small]
  simp [pushRecord]

/-- The record of a refresh is the newest afterwards. -/
theorem getLast?_refreshHost (small : topology.bufferMaxKbytes = 1)
    (event : HostRefresh F Trace) :
    (topology.refreshHost event).recordBuffer.getLast? =
      some (topology.readRecord event.reading) := by
  have few := hostExcess_le (topology.recordBuffer.length + 1)
  rw [recordBuffer_refreshHost small, List.getLast?_drop, if_neg, List.getLast?_concat]
  rw [List.length_append, List.length_singleton]
  omega

/-- The record of a refresh is compared with the newest before it. -/
theorem lastTwo_refreshHost (small : topology.bufferMaxKbytes = 1)
    (event : HostRefresh F Trace) :
    lastTwo (topology.refreshHost event).recordBuffer =
      topology.recordBuffer.getLast?.map fun previous =>
        (previous, topology.readRecord event.reading) := by
  have few := hostExcess_le (topology.recordBuffer.length + 1)
  rw [recordBuffer_refreshHost small, lastTwo_drop _ (by simpa using few), lastTwo_concat]

end Run

end Topology

/-! ## The counters stay the same -/

theorem CPUSocket.names_distributeBackgroundToDomains (socket : CPUSocket F) (now : Nat) :
    (socket.distributeBackgroundToDomains now).domains.map Domain.name =
      socket.domains.map Domain.name := by
  unfold CPUSocket.distributeBackgroundToDomains
  simp only
  split
  · rfl
  · simp only [List.map_map]
    rfl

theorem CPUSocket.names_refresh (socket : CPUSocket F) (now : Nat)
    (records : List CpuStateEvent) (reading : SocketReading) :
    (socket.refresh now records reading).domains.map Domain.name =
      socket.domains.map Domain.name := by
  have indexed (domains : List (Domain F)) :
      (domains.mapIdx fun index domain =>
        domain.refreshRecord (reading.domainEnergy index)).map Domain.name =
          domains.map Domain.name := by
    apply List.ext_getElem?
    intro index
    simp only [List.getElem?_map, List.getElem?_mapIdx, Option.map_map]
    rfl
  have distributed := (socket.refreshActivationIdleRecords now records
    ).names_distributeBackgroundToDomains now
  rw [CPUSocket.refresh, indexed]
  unfold CPUSocket.refreshRecord
  simp only
  split
  · exact distributed
  · exact distributed

namespace Topology

theorem layout_refresh (topology : Topology F Trace) (input : RefreshInput F Trace) :
    (topology.refresh input).layout = topology.layout := by
  apply List.ext_getElem?
  intro index
  rw [layout, layout, List.getElem?_map, List.getElem?_map, getElem?_refresh, Option.map_map]
  congr 1
  funext socket
  exact socket.names_refresh _ _ _

@[simp]
theorem energySources_refreshHost (topology : Topology F Trace) (event : HostRefresh F Trace) :
    (topology.refreshHost event).energySources = topology.energySources := by
  rw [energySources, energySources, refreshHost, layout_refresh]

@[simp]
theorem readRecord_refreshHost (topology : Topology F Trace) (event : HostRefresh F Trace)
    (reading : HostReading) :
    (topology.refreshHost event).readRecord reading = topology.readRecord reading := by
  unfold readRecord
  rw [energySources_refreshHost]

variable {topology : Topology F Trace}

theorem bufferMaxKbytes_run (small : topology.bufferMaxKbytes = 1)
    (events : List (HostRefresh F Trace)) :
    (run refreshHost topology events).bufferMaxKbytes = 1 := by
  refine invariant_run (fun reached : Topology F Trace => reached.bufferMaxKbytes = 1) ?_ small
    events
  intro reached event limit
  rw [refreshHost, bufferMaxKbytes_refresh, limit]

theorem energySources_run (topology : Topology F Trace) (events : List (HostRefresh F Trace)) :
    (run refreshHost topology events).energySources = topology.energySources := by
  refine invariant_run (fun reached : Topology F Trace =>
    reached.energySources = topology.energySources) ?_ rfl
    events
  intro reached event same
  rw [energySources_refreshHost, same]

theorem readRecord_run (topology : Topology F Trace) (events : List (HostRefresh F Trace))
    (reading : HostReading) :
    (run refreshHost topology events).readRecord reading = topology.readRecord reading := by
  unfold readRecord
  rw [energySources_run]

/-- Two refreshes at the end of a run leave their own records at the end of the buffer. -/
theorem lastTwo_run (small : topology.bufferMaxKbytes = 1)
    (earlier : List (HostRefresh F Trace)) (previous last : HostRefresh F Trace) :
    lastTwo (run refreshHost topology (earlier ++ [previous, last])).recordBuffer =
      some (topology.readRecord previous.reading, topology.readRecord last.reading) := by
  have kept := bufferMaxKbytes_run small earlier
  have keptNext := bufferMaxKbytes_run small (earlier ++ [previous])
  rw [run_concat] at keptNext
  rw [run_append, run_cons, run_cons, run_nil, lastTwo_refreshHost keptNext,
    getLast?_refreshHost kept, readRecord_refreshHost, readRecord_run, readRecord_run]
  rfl

/-! ## Which counters a record was summed from -/

/-- The counters that went into the host record of a refresh. -/
def sourcesRead (topology : Topology F Trace) (reading : HostReading) : List Source :=
  match (reading.file .psys).content with
  | some _ => [.psys]
  | none => topology.energySources.filter fun source => (reading.file source).value?.isSome

/-- The energy a record stands for, absent when the psys text is no number. -/
def recordedEnergy (topology : Topology F Trace) (reading : HostReading) : Option Nat :=
  match reading.file .psys with
  | .counter microjoules _ => some microjoules
  | .garbled _ _ => none
  | .unreadable =>
      some ((topology.energySources.filterMap fun source => (reading.file source).value?).sum)

theorem sum_added (files : List EnergyFile) :
    (files.map EnergyFile.added).sum = ((files.filterMap EnergyFile.value?).sum : Nat) := by
  induction files with
  | nil => rfl
  | cons file rest ih =>
      rw [List.map_cons, List.sum_cons, ih, file.added_eq, List.filterMap_cons]
      cases file.value? with
      | none => simp
      | some microjoules => simp

omit [Float64 F] in
/-- The text of a record reads back as the energy it stands for. -/
theorem parse_readRecord (topology : Topology F Trace) (reading : HostReading) :
    parseU128 (trim (topology.readRecord reading).value) = topology.recordedEnergy reading := by
  unfold readRecord recordedEnergy
  cases reading.file .psys with
  | unreadable =>
      have summed := sum_added (topology.energySources.map reading.file)
      rw [List.map_map, List.filterMap_map] at summed
      simp only [EnergyFile.content]
      change parseU128 (trim (intToText
        (topology.energySources.map (EnergyFile.added ∘ reading.file)).sum)) = _
      rw [summed]
      change parseU128 (trim (toText _)) = _
      rw [trim_toText, parseU128_toText]
      rfl
  | garbled content unparsable =>
      simp only [EnergyFile.content]
      exact parseU128_eq_none unparsable
  | counter microjoules fits =>
      simp only [EnergyFile.content, trim_toText_newline, parseU128_toText]

/-- The difference at the end of a run is that of the last two recorded energies. -/
theorem energyDiff_run (small : topology.bufferMaxKbytes = 1)
    (earlier : List (HostRefresh F Trace)) (previous last : HostRefresh F Trace) (diff : Nat) :
    (run refreshHost topology (earlier ++ [previous, last])).energyDiff = some diff ↔
      ∃ before after, topology.recordedEnergy previous.reading = some before ∧
        topology.recordedEnergy last.reading = some after ∧ before ≤ after ∧
          diff = after - before := by
  rw [energyDiff, lastTwo_run small]
  simp only [parse_readRecord]
  cases topology.recordedEnergy previous.reading with
  | none => simp
  | some before =>
      cases topology.recordedEnergy last.reading with
      | none => simp
      | some after =>
          simp only [Option.some.injEq, exists_and_left, exists_eq_left']
          split
          · rename_i less
            simp only [reduceCtorEq, false_iff, not_and]
            omega
          · rename_i atLeast
            simp only [Option.some.injEq]
            omega

end Topology

end ScaphandreFormal.Sensors
