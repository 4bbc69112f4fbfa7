import ScaphandreFormal.Ebpf.Programs
import ScaphandreFormal.Sensors.Records

/-!
# Sockets, domains and cores

A socket derives a power from its last two energy records and subtracts the
background, the larger of its idle and activation estimates.  The estimates
come from the same power: a batch of CPU state events makes the socket record
the current power as an idle or activation value.
-/

namespace ScaphandreFormal.Sensors

open Foundation Ebpf

/-- One sample of a core's counters, the ten values of the record that
`CPUCore::read_record` writes. -/
structure CoreRecord (F : Type) where
  timestamp : Nat
  totalIdleUs : Nat
  mperf : Nat
  aperf : Nat
  coreBusy : Nat
  coreTotal : Nat
  nodeBusy : Nat
  nodeTotal : Nat
  instructions : F
  cycles : F
  tsc : Nat
  deriving DecidableEq

structure CPUCore (F : Type) where
  id : Nat
  recordBuffer : List (CoreRecord F)
  bufferMaxKbytes : Nat
  deriving DecidableEq

/-- `refresh_record` of a core, whose read always succeeds. -/
def CPUCore.refreshRecord {F : Type} (core : CPUCore F) (reading : CoreRecord F) : CPUCore F :=
  { core with
    recordBuffer := removeOldest sizeOfMultiValuedRecord (maxBytes core.bufferMaxKbytes)
      (core.recordBuffer ++ [reading]) }

structure Domain (F : Type) where
  id : Nat
  name : Text
  recordBuffer : List (Record Text)
  bufferMaxKbytes : Nat
  raplMaxUj : Nat
  backgroundPowerUw : F
  /-- The entry `related_resource` of `sensor_data`. -/
  relatedResource : Option Text

structure CPUSocket (F : Type) where
  id : Nat
  domains : List (Domain F)
  recordBuffer : List (Record Text)
  bufferMaxKbytes : Nat
  activationIdleBuffer : List (MultiValuedRecord Text)
  cpuCores : List (CPUCore F)
  raplMaxUj : Nat

variable {F : Type} [Float64 F]

/-! ## Power of a buffer of energy records -/

/-- The energy between two readings of a counter that wraps at `raplMaxUj`. -/
def counterDiff (raplMaxUj previous last : Nat) : Nat :=
  if previous ≤ last then last - previous else saturatingAdd (raplMaxUj - previous) last

/-- The power between two energy records, cast to `u64`; nothing when a value does not
parse. -/
def powerBetween (F : Type) [Float64 F] (raplMaxUj : Nat) (previous last : Record Text) :
    Option Nat :=
  match parseU64 (trim last.value), parseU64 (trim previous.value) with
  | some lastMicrojoules, some previousMicrojoules =>
      let microjoules := counterDiff raplMaxUj previousMicrojoules lastMicrojoules
      let timeDiff : F := Float64.sub (Float64.asSecsF64 last.timestamp)
        (Float64.asSecsF64 previous.timestamp)
      some (Float64.asU64 (Float64.div (Float64.ofU64 microjoules) timeDiff))
  | _, _ => none

/-- The power of the last two records less a background, at the time of the last. -/
def diffPower (F : Type) [Float64 F] (raplMaxUj background : Nat) (buffer : List (Record Text)) :
    Option (Record Text) :=
  match lastTwo buffer with
  | some (previous, last) =>
      (powerBetween F raplMaxUj previous last).map fun microwatts =>
        ⟨last.timestamp, toText (microwatts - background), .microWatt⟩
  | none => none

/-- A reading that succeeded is appended. -/
def pushRecord (buffer : List (Record Text)) (reading : Option (Record Text)) :
    List (Record Text) :=
  buffer ++ reading.toList

/-- `r.as_ref().and_then(|r| r.value.parse::<u64>().ok()).unwrap_or(0)`. -/
def valueOrZero (record : Option (Record Text)) : Nat :=
  (record.bind fun r => parseU64 r.value).getD 0

/-- The same with `parse::<f64>`; all its texts are printed `u64` values. -/
def floatOrZero (record : Option (Record Text)) : F :=
  Float64.ofU64 (valueOrZero record)

namespace Domain

def getRecordsDiffPowerMicrowatts (domain : Domain F) : Option (Record Text) :=
  diffPower F domain.raplMaxUj (Float64.asU64 domain.backgroundPowerUw) domain.recordBuffer

def refreshRecord (domain : Domain F) (reading : Option (Record Text)) : Domain F :=
  { domain with
    recordBuffer := removeOldest sizeOfRecord (maxBytes domain.bufferMaxKbytes)
      (pushRecord domain.recordBuffer reading) }

end Domain

namespace CPUSocket

/-! ## Estimates and background -/

/-- `get_idle_power_microwatts`, with `now` for the clock it reads. -/
def getIdlePowerMicrowatts (now : Nat) (socket : CPUSocket F) : Option (Record Text) :=
  match socket.activationIdleBuffer.getLast? with
  | some ⟨_, idle :: _ :: _, _⟩ => some ⟨now, idle, .microWatt⟩
  | _ => none

def getActivationPowerMicrowatts (now : Nat) (socket : CPUSocket F) : Option (Record Text) :=
  match socket.activationIdleBuffer.getLast? with
  | some ⟨_, _ :: activation :: _, _⟩ => some ⟨now, activation, .microWatt⟩
  | _ => none

def getBackgroundPowerMicrowatts (now : Nat) (socket : CPUSocket F) : Option (Record Text) :=
  let idle := valueOrZero (socket.getIdlePowerMicrowatts now)
  let activation := valueOrZero (socket.getActivationPowerMicrowatts now)
  some ⟨now, toText (max idle activation), .microWatt⟩

def getRecordsDiffPowerMicrowatts (now : Nat) (socket : CPUSocket F) : Option (Record Text) :=
  diffPower F socket.raplMaxUj (valueOrZero (socket.getBackgroundPowerMicrowatts now))
    socket.recordBuffer

/-- The new value of an estimate that stood at `estimate`, zero meaning that there is
none. -/
def lowered (current estimate : Nat) : Nat :=
  if estimate ≠ 0 then min current estimate else current

def readActivationIdleRecord (now : Nat) (records : List CpuStateEvent) (socket : CPUSocket F) :
    Option (MultiValuedRecord Text) :=
  let idleRecExists := records.any fun r => r.eventType = .idleEvent
  let activationRecExists := records.any fun r => r.eventType = .activationEvent
  if idleRecExists || activationRecExists then
    match (socket.getRecordsDiffPowerMicrowatts now).bind fun r => parseU64 r.value with
    | some current =>
        let idle := valueOrZero (socket.getIdlePowerMicrowatts now)
        let idle := if idleRecExists then lowered current idle else idle
        let activation := valueOrZero (socket.getActivationPowerMicrowatts now)
        let activation := if activationRecExists then lowered current activation else activation
        some ⟨now, [toText idle, toText activation], [.microWatt, .microWatt]⟩
    | none => none
  else none

/-! ## The refresh of one socket -/

def refreshActivationIdleRecords (now : Nat) (records : List CpuStateEvent)
    (socket : CPUSocket F) : CPUSocket F :=
  { socket with
    activationIdleBuffer :=
      socket.activationIdleBuffer ++ (socket.readActivationIdleRecord now records).toList }

/-- Distributes socket-level background power proportionally across domains by their
current power. -/
def distributeBackgroundToDomains (now : Nat) (socket : CPUSocket F) : CPUSocket F :=
  let background : F := floatOrZero (socket.getBackgroundPowerMicrowatts now)
  if Float64.isZero background then socket
  else
    let total : F := floatOrZero (socket.getRecordsDiffPowerMicrowatts now)
    let n : F := Float64.ofU64 socket.domains.length
    { socket with
      domains := socket.domains.map fun domain =>
        let power : F := floatOrZero domain.getRecordsDiffPowerMicrowatts
        { domain with
          backgroundPowerUw :=
            if Float64.isPositive total then Float64.mul background (Float64.div power total)
            else Float64.div background n } }

def cleanOldRecords (socket : CPUSocket F) : CPUSocket F :=
  { socket with
    recordBuffer := removeOldest sizeOfRecord (maxBytes socket.bufferMaxKbytes)
      socket.recordBuffer
    activationIdleBuffer := removeOldest sizeOfMultiValuedRecord
      (maxBytes socket.bufferMaxKbytes) socket.activationIdleBuffer }

def refreshRecord (reading : Option (Record Text)) (socket : CPUSocket F) : CPUSocket F :=
  let pushed := { socket with recordBuffer := pushRecord socket.recordBuffer reading }
  if pushed.recordBuffer ≠ [] then pushed.cleanOldRecords else pushed

end CPUSocket

/-- What the counters of one socket return in a refresh: the energy of the socket and of
each domain, by position, absent when the read fails. -/
structure SocketReading where
  energy : Option (Record Text)
  domainEnergy : Nat → Option (Record Text)

namespace CPUSocket

/-- `refresh_core_idle_records` on the cores of one socket, by position. -/
def refreshCores (reading : Nat → CoreRecord F) (socket : CPUSocket F) : CPUSocket F :=
  { socket with
    cpuCores := socket.cpuCores.mapIdx fun index core => core.refreshRecord (reading index) }

/-- The body of the socket loop in `Topology::refresh`.  Its `refresh_stats` only touches
the statistics of the socket, which nothing here reads. -/
def refresh (now : Nat) (records : List CpuStateEvent) (reading : SocketReading)
    (socket : CPUSocket F) : CPUSocket F :=
  let estimated := socket.refreshActivationIdleRecords now records
  let distributed := estimated.distributeBackgroundToDomains now
  let recorded := distributed.refreshRecord reading.energy
  { recorded with
    domains := recorded.domains.mapIdx fun index domain =>
      domain.refreshRecord (reading.domainEnergy index) }

end CPUSocket

end ScaphandreFormal.Sensors
