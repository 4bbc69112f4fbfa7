import ScaphandreFormal.Sensors.ProcessTracker
import ScaphandreFormal.Sensors.Socket

/-!
# The topology and its refresh

One refresh drains the CPU state events, hands each socket its batch, lets it
estimate, distribute its background and read its counters, and then records the
cores, the processes, the CPU times and the energy of the host, in this order.
-/

namespace ScaphandreFormal.Sensors

open Foundation Ebpf

structure Topology (F Trace : Type) where
  sockets : List (CPUSocket F)
  procTracker : ProcessTracker Trace
  recordBuffer : List (Record Text)
  bufferMaxKbytes : Nat
  /-- The state events not yet handed to a socket, by socket id. -/
  activationIdleBuffer : Nat → List CpuStateEvent
  cpuTimeBuffer : List (MultiValuedRecord Text)

/-- What one refresh reads: the clock, the events drained from the ring buffer, the
counters of each socket and core by position, the processes with the time each was read,
`CPU_TIME` when its map is there, and the energy of the host. -/
structure RefreshInput (F Trace : Type) where
  now : Nat
  drained : List CpuStateEvent
  socketReading : Nat → SocketReading
  coreReading : Nat → Nat → CoreRecord F
  processes : List (Nat × IProcess Trace)
  cpuTime : Option (Nat → Option Nat)
  energy : Option (Record Text)

variable {F Trace : Type} [Float64 F]

namespace Topology

/-! ## State events and sockets -/

/-- The drained events are grouped by their socket id. -/
def refreshActivationIdleRecords (drained : List CpuStateEvent)
    (buffer : Nat → List CpuStateEvent) : Nat → List CpuStateEvent :=
  drained.foldl (fun buffer event => fun id =>
    if id = event.socketId then buffer id ++ [event] else buffer id) buffer

/-- `get_activation_idle_records` for each socket id in turn. -/
def getActivationIdleRecords :
    List Nat → (Nat → List CpuStateEvent) → List (List CpuStateEvent) × (Nat → List CpuStateEvent)
  | [], buffer => ([], buffer)
  | id :: rest, buffer =>
      let later := getActivationIdleRecords rest fun other =>
        if other = id then [] else buffer other
      (buffer id :: later.1, later.2)

/-- The batches of events handed to the sockets, and what stays in the buffer. -/
def batches (topology : Topology F Trace) (drained : List CpuStateEvent) :
    List (List CpuStateEvent) × (Nat → List CpuStateEvent) :=
  getActivationIdleRecords (topology.sockets.map CPUSocket.id)
    (refreshActivationIdleRecords drained topology.activationIdleBuffer)

/-- `refresh` up to the end of the socket loop. -/
def refreshSockets (topology : Topology F Trace) (input : RefreshInput F Trace) :
    Topology F Trace :=
  let collected := topology.batches input.drained
  { topology with
    sockets := (topology.sockets.zip collected.1).mapIdx fun index pair =>
      pair.1.refresh input.now pair.2 (input.socketReading index)
    activationIdleBuffer := collected.2 }

/-! ## Cores, processes, CPU time and host energy -/

def refreshCoreIdleRecords (topology : Topology F Trace) (input : RefreshInput F Trace) :
    Topology F Trace :=
  { topology with
    sockets := topology.sockets.mapIdx fun index socket =>
      socket.refreshCores (input.coreReading index) }

def refreshProcs (topology : Topology F Trace) (input : RefreshInput F Trace) :
    Topology F Trace :=
  { topology with
    procTracker := input.processes.foldl
      (fun tracker seen => tracker.addProcessRecord seen.1 seen.2) topology.procTracker }

/-- How many CPU time records are removed; here the loop is `0..n`. -/
def cpuTimeExcess (limit count : Nat) : Nat :=
  let currSize := sizeOfMultiValuedRecord * count
  if limit < currSize then
    let sizeDiff := currSize - limit
    if sizeOfMultiValuedRecord < sizeDiff then sizeDiff / sizeOfMultiValuedRecord else 0
  else 0

def refreshCpuTimeRecord (topology : Topology F Trace) (input : RefreshInput F Trace) :
    Topology F Trace :=
  match input.cpuTime with
  | some map =>
      let nbCores := topology.procTracker.nbCores
      let values := (List.range nbCores).map fun cpu => toText ((map cpu).getD 0)
      let pushed := topology.cpuTimeBuffer ++
        [⟨input.now, values, List.replicate nbCores .numeric⟩]
      { topology with
        cpuTimeBuffer :=
          pushed.drop (cpuTimeExcess (maxBytes topology.bufferMaxKbytes) pushed.length) }
  | none => topology

/-- How many host records are removed; here the size is cut to `u16` before it is
compared. -/
def hostExcess (limit count : Nat) : Nat :=
  let currSize := sizeOfRecord * count
  if limit < currSize % 2 ^ 16 then
    let sizeDiff := currSize - limit
    if sizeOfRecord < sizeDiff then sizeDiff / sizeOfRecord - 1 else 0
  else 0

def refreshRecord (topology : Topology F Trace) (input : RefreshInput F Trace) :
    Topology F Trace :=
  let pushed := pushRecord topology.recordBuffer input.energy
  { topology with
    recordBuffer :=
      pushed.drop (hostExcess (maxBytes topology.bufferMaxKbytes) pushed.length) }

/-- `Topology::refresh`.  Its `proc_tracker.refresh` and `refresh_stats` only touch what
the operating system reports and the statistics, which nothing here reads. -/
def refresh (topology : Topology F Trace) (input : RefreshInput F Trace) : Topology F Trace :=
  ((((topology.refreshSockets input).refreshCoreIdleRecords input).refreshProcs input
    ).refreshCpuTimeRecord input).refreshRecord input

/-! ## What a refresh does to one socket -/

/-- The batch of the socket at `index`. -/
def batchOf (topology : Topology F Trace) (drained : List CpuStateEvent) (index : Nat) :
    List CpuStateEvent :=
  ((topology.batches drained).1[index]?).getD []

theorem length_getActivationIdleRecords (ids : List Nat) (buffer : Nat → List CpuStateEvent) :
    (getActivationIdleRecords ids buffer).1.length = ids.length := by
  induction ids generalizing buffer with
  | nil => rfl
  | cons id rest ih => simp [getActivationIdleRecords, ih]

theorem getElem?_refreshSockets (topology : Topology F Trace) (input : RefreshInput F Trace)
    (index : Nat) :
    (topology.refreshSockets input).sockets[index]? =
      (topology.sockets[index]?).map fun socket =>
        socket.refresh input.now (topology.batchOf input.drained index)
          (input.socketReading index) := by
  have lengths : (topology.batches input.drained).1.length = topology.sockets.length := by
    rw [batches, length_getActivationIdleRecords, List.length_map]
  unfold refreshSockets batchOf
  simp only [List.getElem?_mapIdx, List.zip, List.getElem?_zipWith]
  cases atIndex : topology.sockets[index]? with
  | none => rfl
  | some socket =>
      have inside : index < topology.sockets.length := (List.getElem?_eq_some_iff.mp atIndex).1
      cases batch : (topology.batches input.drained).1[index]? with
      | none =>
          rw [List.getElem?_eq_none_iff] at batch
          omega
      | some records => rfl

theorem sockets_refresh (topology : Topology F Trace) (input : RefreshInput F Trace) :
    (topology.refresh input).sockets =
      ((topology.refreshSockets input).refreshCoreIdleRecords input).sockets := by
  unfold refresh refreshRecord refreshCpuTimeRecord
  cases input.cpuTime with
  | none => rfl
  | some map => rfl

theorem procTracker_refresh (topology : Topology F Trace) (input : RefreshInput F Trace) :
    (topology.refresh input).procTracker = input.processes.foldl
      (fun tracker seen => tracker.addProcessRecord seen.1 seen.2) topology.procTracker := by
  unfold refresh refreshRecord refreshCpuTimeRecord
  cases input.cpuTime with
  | none => rfl
  | some map => rfl

/-- A refresh keeps the settings of the tracker. -/
theorem nbCores_refresh (topology : Topology F Trace) (input : RefreshInput F Trace) :
    (topology.refresh input).procTracker.nbCores = topology.procTracker.nbCores ∧
      (topology.refresh input).procTracker.maxRecordsPerProcess =
        topology.procTracker.maxRecordsPerProcess := by
  rw [procTracker_refresh]
  generalize topology.procTracker = tracker
  induction input.processes generalizing tracker with
  | nil => exact ⟨rfl, rfl⟩
  | cons seen rest ih => exact ih _

/-- Each socket evolves by itself, on its own batch and readings. -/
theorem getElem?_refresh (topology : Topology F Trace) (input : RefreshInput F Trace)
    (index : Nat) :
    (topology.refresh input).sockets[index]? =
      (topology.sockets[index]?).map fun socket =>
        (socket.refresh input.now (topology.batchOf input.drained index)
          (input.socketReading index)).refreshCores (input.coreReading index) := by
  rw [sockets_refresh, refreshCoreIdleRecords, List.getElem?_mapIdx, getElem?_refreshSockets,
    Option.map_map]
  rfl

end Topology

end ScaphandreFormal.Sensors
