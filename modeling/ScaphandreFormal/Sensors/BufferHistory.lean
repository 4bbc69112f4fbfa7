import ScaphandreFormal.Sensors.BufferLimits
import ScaphandreFormal.Sensors.HostEnergy
import Mathlib.Data.List.ReduceOption

/-!
# What the buffers remember

Each refresh reads at most one entry for each buffer and prunes the buffer.  A
limit of at least one kilobyte has room for two entries of any kind, and what
the pruning takes away leaves at least the limit, so that it never reaches the
last two entries.  At every moment a buffer is an end piece of all that was read
for it, and a difference between its last two entries is one between the last
two readings.
-/

namespace ScaphandreFormal.Sensors

open Foundation Ebpf

variable {Entry : Type}

/-- The entries, oldest first, are an end piece of the readings that has their last two. -/
structure Remembers (entries readings : List Entry) : Prop where
  isSuffix : entries <:+ readings
  newest : entries.getLast? = readings.getLast?
  latest : lastTwo entries = lastTwo readings

namespace Remembers

variable {entries readings : List Entry}

theorem nil : Remembers ([] : List Entry) [] := ⟨List.suffix_rfl, rfl, rfl⟩

theorem concat (remembers : Remembers entries readings) (entry : Entry) :
    Remembers (entries ++ [entry]) (readings ++ [entry]) where
  isSuffix := by
    obtain ⟨dropped, rfl⟩ := remembers.isSuffix
    exact ⟨dropped, by simp⟩
  newest := by rw [List.getLast?_concat, List.getLast?_concat]
  latest := by rw [lastTwo_concat, lastTwo_concat, remembers.newest]

/-- A reading that fails adds nothing. -/
theorem append (remembers : Remembers entries readings) (reading : Option Entry) :
    Remembers (entries ++ reading.toList) (readings ++ reading.toList) := by
  cases reading with
  | none => simpa using remembers
  | some entry => exact remembers.concat entry

/-- What is dropped from the old end is forgotten, as long as two entries stay. -/
theorem drop (remembers : Remembers entries readings) {count : Nat}
    (few : count ≤ entries.length - 2) : Remembers (entries.drop count) readings where
  isSuffix := (List.drop_suffix count entries).trans remembers.isSuffix
  newest := by
    rw [← remembers.newest, List.getLast?_drop]
    split
    · have short : entries.length = 0 := by omega
      rw [List.length_eq_zero_iff.mp short]
      rfl
    · rfl
  latest := by rw [lastTwo_drop entries few, remembers.latest]

end Remembers

/-! ## One buffer -/

/-- The excess over a limit with room for two entries leaves two. -/
theorem excess_div_le {size limit : Nat} (wide : 2 * size ≤ limit) (count : Nat) :
    (size * count - limit) / size ≤ count - 2 := by
  apply Nat.div_le_of_le_mul
  rw [Nat.mul_sub]
  omega

theorem passes_le {first size limit : Nat} (wide : 2 * size ≤ limit) (count : Nat) :
    passes (· / ·) first size limit count ≤ count - 2 := by
  unfold passes
  simp only
  split
  · split
    · exact (Nat.sub_le _ _).trans (excess_div_le wide count)
    · exact Nat.zero_le _
  · exact Nat.zero_le _

theorem hostPasses_le {size limit : Nat} (wide : 2 * size ≤ limit) (count : Nat) :
    hostPasses (· / ·) size limit count ≤ count - 2 := by
  unfold hostPasses
  simp only
  split
  · split
    · exact (Nat.sub_le _ _).trans (excess_div_le wide count)
    · exact Nat.zero_le _
  · exact Nat.zero_le _

namespace Buffer

/-- The content with the oldest entry first. -/
def chronological (buffer : Buffer) (content : List Entry) : List Entry :=
  match buffer with
  | topologyStats | socketStats => content.reverse
  | topologyRecords | socketRecords | socketActivationIdle | coreRecords | domainRecords
  | cpuTimeRecords => content

theorem removals_le (buffer : Buffer) {size limit : Nat} (wide : 2 * size ≤ limit)
    (count : Nat) : buffer.removals (· / ·) size limit count ≤ count - 2 := by
  cases buffer <;> first | exact hostPasses_le wide count | exact passes_le wide count

/-- The pruning forgets from the old end. -/
theorem remembers_clean {buffer : Buffer} {size bufferMaxKbytes : Nat}
    {content readings : List Entry} (wide : 2 * size ≤ maxBytes bufferMaxKbytes)
    (remembers : Remembers (buffer.chronological content) readings) :
    Remembers (buffer.chronological (buffer.clean (· / ·) size bufferMaxKbytes content))
      readings := by
  have few := buffer.removals_le wide content.length
  have forward : ∀ count, count ≤ content.length - 2 → Remembers content readings →
      Remembers (content.drop count) readings := fun count few here => here.drop few
  have backward : ∀ count, count ≤ content.length - 2 → Remembers content.reverse readings →
      Remembers (content.take (content.length - count)).reverse readings := by
    intro count few here
    have same : content.length - (content.length - count) = count := by omega
    rw [List.reverse_take, same]
    exact here.drop (by rwa [List.length_reverse])
  cases buffer <;> first | exact forward _ few remembers | exact backward _ few remembers

/-- A refresh remembers its reading and forgets from the old end. -/
theorem remembers_refresh (buffer : Buffer) {size bufferMaxKbytes : Nat}
    {content readings : List Entry} (wide : 2 * size ≤ maxBytes bufferMaxKbytes)
    (remembers : Remembers (buffer.chronological content) readings) (reading : Option Entry) :
    Remembers (buffer.chronological
        (buffer.refresh (· / ·) size bufferMaxKbytes content reading))
      (readings ++ reading.toList) := by
  have cleaned : ∀ given read : List Entry, Remembers (buffer.chronological given) read →
      Remembers (buffer.chronological (buffer.clean (· / ·) size bufferMaxKbytes given)) read :=
    fun _ _ here => remembers_clean wide here
  cases buffer
  case topologyStats =>
    cases reading with
    | none => simpa [refresh, handed] using remembers
    | some entry =>
        have added : Remembers (entry :: content).reverse (readings ++ [entry]) := by
          rw [List.reverse_cons]
          exact remembers.concat entry
        exact cleaned (entry :: content) _ added
  case cpuTimeRecords =>
    cases reading with
    | none => simpa [refresh, handed] using remembers
    | some entry => exact cleaned (content ++ [entry]) _ (remembers.concat entry)
  case socketStats =>
    have pruned : Remembers (((if content = [] then none else some content).map
        (socketStats.clean (· / ·) size bufferMaxKbytes)).getD content).reverse readings := by
      split
      · exact remembers
      · exact cleaned content _ remembers
    have added : ∀ kept : List Entry,
        (reading.toList ++ kept).reverse = kept.reverse ++ reading.toList := by
      cases reading <;> simp
    change Remembers (reading.toList ++ _).reverse _
    rw [added]
    exact pruned.append reading
  all_goals
    have pushed : Remembers (content ++ reading.toList) (readings ++ reading.toList) :=
      remembers.append reading
    change Remembers (((if content ++ reading.toList = [] then none
      else some (content ++ reading.toList)).map _).getD content) _
    split
    · rename_i nothing
      rw [(List.append_eq_nil_iff.mp nothing).1]
      rwa [nothing] at pushed
    · exact cleaned _ _ pushed

/-- Over a run of refreshes from an empty buffer. -/
theorem remembers_run (buffer : Buffer) {size bufferMaxKbytes : Nat}
    (wide : 2 * size ≤ maxBytes bufferMaxKbytes) (readings : List (Option Entry)) :
    Remembers (buffer.chronological
        (run (buffer.refresh (· / ·) size bufferMaxKbytes) [] readings))
      readings.reduceOption := by
  induction readings using List.reverseRecOn with
  | nil => cases buffer <;> exact .nil
  | append_singleton readings reading ih =>
      rw [run_concat, List.reduceOption_append]
      cases reading with
      | none => simpa using buffer.remembers_refresh wide ih none
      | some entry => simpa using buffer.remembers_refresh wide ih (some entry)

end Buffer

/-- The limits for which the byte count does not wrap and is not zero. -/
def IsLimit (bufferMaxKbytes : Nat) : Prop := 1 ≤ bufferMaxKbytes ∧ bufferMaxKbytes ≤ 65

instance (bufferMaxKbytes : Nat) : Decidable (IsLimit bufferMaxKbytes) :=
  inferInstanceAs (Decidable (_ ∧ _))

theorem IsLimit.wide {bufferMaxKbytes size : Nat} (limit : IsLimit bufferMaxKbytes)
    (small : size ≤ 500) : 2 * size ≤ maxBytes bufferMaxKbytes := by
  obtain ⟨positive, unwrapped⟩ := limit
  rw [Buffer.maxBytes_eq (by omega)]
  omega

/-! ## Statistics -/

/-- The times of `/proc/stat`. -/
structure CPUStat where
  user : UInt64
  nice : UInt64
  system : UInt64
  idle : UInt64
  iowait : Option UInt64
  irq : Option UInt64
  softirq : Option UInt64
  steal : Option UInt64
  guest : Option UInt64
  guestNice : Option UInt64
  deriving DecidableEq, Repr

/-- `size_of::<CPUStat>()`. -/
def sizeOfCPUStat : Nat := 128

namespace CPUStat

/-- The difference of two times that may be missing. -/
def optionalDiff : Option UInt64 → Option UInt64 → Option UInt64
  | some last, some previous => some (last - previous)
  | _, _ => none

def diff (last previous : CPUStat) : CPUStat where
  user := last.user - previous.user
  nice := last.nice - previous.nice
  system := last.system - previous.system
  idle := last.idle - previous.idle
  iowait := optionalDiff last.iowait previous.iowait
  irq := optionalDiff last.irq previous.irq
  softirq := optionalDiff last.softirq previous.softirq
  steal := optionalDiff last.steal previous.steal
  guest := optionalDiff last.guest previous.guest
  guestNice := optionalDiff last.guestNice previous.guestNice

end CPUStat

/-- `get_stats_diff` of the topology or of a socket, on the statistics newest first. -/
def getStatsDiff : List CPUStat → Option CPUStat
  | last :: previous :: _ => some (last.diff previous)
  | _ => none

theorem getStatsDiff_of_remembers {statBuffer readings : List CPUStat}
    (remembers : Remembers statBuffer.reverse readings) :
    getStatsDiff statBuffer = (lastTwo readings).map fun pair => pair.2.diff pair.1 := by
  rw [← remembers.latest, lastTwo, List.reverse_reverse]
  rcases statBuffer with _ | ⟨last, _ | ⟨previous, older⟩⟩
  · rfl
  · rfl
  · rfl

/-! ## Sockets -/

variable {F Trace : Type}

/-- What one refresh reads for a socket and its cores. -/
structure SocketInput (F : Type) where
  reading : SocketReading
  coreReading : Nat → CoreRecord F

namespace CPUSocket

/-- The limits of the buffers of a socket, and what they hold of what was read. -/
structure History (socket : CPUSocket F) (inputs : List (SocketInput F)) : Prop where
  limit : IsLimit socket.bufferMaxKbytes
  records : Remembers socket.recordBuffer (inputs.filterMap (·.reading.energy))
  domains : ∀ position, ∀ domain ∈ socket.domains[position]?,
    IsLimit domain.bufferMaxKbytes ∧
      Remembers domain.recordBuffer (inputs.filterMap (·.reading.domainEnergy position))
  cores : ∀ position, ∀ core ∈ socket.cpuCores[position]?,
    IsLimit core.bufferMaxKbytes ∧
      Remembers core.recordBuffer (inputs.map (·.coreReading position))

variable [Float64 F]

/-- The part of a refresh before the counters are read leaves their buffers alone. -/
theorem prepared_eq (socket : CPUSocket F) (now : Nat) (records : List CpuStateEvent) :
    ∃ (buffer : List (MultiValuedRecord Text)) (background : Domain F → F),
      (socket.refreshActivationIdleRecords now records).distributeBackgroundToDomains now =
        { socket with
          activationIdleBuffer := buffer
          domains := socket.domains.map fun domain =>
            { domain with backgroundPowerUw := background domain } } := by
  unfold distributeBackgroundToDomains
  simp only
  split
  · refine ⟨(socket.refreshActivationIdleRecords now records).activationIdleBuffer,
      Domain.backgroundPowerUw, ?_⟩
    simp [refreshActivationIdleRecords]
  · exact ⟨_, _, rfl⟩

theorem refresh_eq (socket : CPUSocket F) (now : Nat) (records : List CpuStateEvent)
    (reading : SocketReading) :
    ∃ (buffer : List (MultiValuedRecord Text)) (background : Domain F → F),
      socket.refresh now records reading =
        { socket with
          recordBuffer := (socket.refreshRecord reading.energy).recordBuffer
          activationIdleBuffer := buffer
          domains := socket.domains.mapIdx fun position domain =>
            Domain.refreshRecord { domain with backgroundPowerUw := background domain }
              (reading.domainEnergy position) } := by
  obtain ⟨buffer, background, prepared⟩ := socket.prepared_eq now records
  refine ⟨(({ socket with activationIdleBuffer := buffer } : CPUSocket F).refreshRecord
    reading.energy).activationIdleBuffer, background, ?_⟩
  have positions : (socket.domains.map fun domain =>
        { domain with backgroundPowerUw := background domain }).mapIdx
          (fun position domain => domain.refreshRecord (reading.domainEnergy position)) =
      socket.domains.mapIdx fun position domain =>
        Domain.refreshRecord { domain with backgroundPowerUw := background domain }
          (reading.domainEnergy position) := by
    apply List.ext_getElem?
    intro position
    simp [Function.comp_def]
  simp only [refresh, prepared, refreshRecord]
  split
  · simp only [cleanOldRecords, positions]
  · simp only [positions]

/-- A refresh of a socket and of its cores. -/
theorem History.refresh {socket : CPUSocket F} {inputs : List (SocketInput F)}
    (history : socket.History inputs) (now : Nat) (records : List CpuStateEvent)
    (input : SocketInput F) :
    ((socket.refresh now records input.reading).refreshCores input.coreReading).History
      (inputs ++ [input]) := by
  obtain ⟨buffer, background, refreshed⟩ := socket.refresh_eq now records input.reading
  rw [refreshed]
  have added : ∀ {Value : Type} (read : SocketInput F → Option Value),
      (inputs ++ [input]).filterMap read = inputs.filterMap read ++ (read input).toList := by
    intro Value read
    rw [List.filterMap_append]
    cases found : read input <;> simp [found]
  refine ⟨history.limit, ?_, ?_, ?_⟩
  · rw [added, refreshCores]
    simp only
    rw [CPUSocket.recordBuffer_refreshRecord]
    exact Buffer.socketRecords.remembers_refresh (history.limit.wide (by decide)) history.records _
  · intro position domain found
    simp only [refreshCores, List.getElem?_mapIdx, Option.mem_def, Option.map_eq_some_iff] at found
    obtain ⟨before, isBefore, rfl⟩ := found
    obtain ⟨limit, remembers⟩ := history.domains position before isBefore
    refine ⟨limit, ?_⟩
    rw [added, Domain.recordBuffer_refreshRecord]
    exact Buffer.domainRecords.remembers_refresh (limit.wide (by decide)) remembers _
  · intro position core found
    simp only [refreshCores, List.getElem?_mapIdx, Option.mem_def, Option.map_eq_some_iff] at found
    obtain ⟨before, isBefore, rfl⟩ := found
    obtain ⟨limit, remembers⟩ := history.cores position before isBefore
    refine ⟨limit, ?_⟩
    rw [List.map_append, CPUCore.recordBuffer_refreshRecord]
    exact Buffer.coreRecords.remembers_refresh (limit.wide (by decide)) remembers (some _)

end CPUSocket

/-! ## The topology -/

namespace RefreshInput

def socketInput (index : Nat) (input : RefreshInput F Trace) : SocketInput F where
  reading := input.socketReading index
  coreReading := input.coreReading index

/-- The record of the CPU times, when their map is there. -/
def cpuTimeRecord (nbCores : Nat) (input : RefreshInput F Trace) :
    Option (MultiValuedRecord Text) :=
  input.cpuTime.map fun map =>
    ⟨input.now, (List.range nbCores).map fun cpu => toText ((map cpu).getD 0),
      List.replicate nbCores .numeric⟩

end RefreshInput

namespace Topology

/-- The limits of all buffers, and what they hold of what was read. -/
structure History (topology : Topology F Trace) (inputs : List (RefreshInput F Trace)) :
    Prop where
  limit : IsLimit topology.bufferMaxKbytes
  records : Remembers topology.recordBuffer (inputs.filterMap RefreshInput.energy)
  cpuTimes : Remembers topology.cpuTimeBuffer
    (inputs.filterMap (RefreshInput.cpuTimeRecord topology.procTracker.nbCores))
  sockets : ∀ index, ∀ socket ∈ topology.sockets[index]?,
    CPUSocket.History socket (inputs.map (RefreshInput.socketInput index))

variable [Float64 F]

theorem recordBuffer_refresh_eq (topology : Topology F Trace) (input : RefreshInput F Trace) :
    (topology.refresh input).recordBuffer =
      Buffer.topologyRecords.refresh (· / ·) sizeOfRecord topology.bufferMaxKbytes
        topology.recordBuffer input.energy := by
  unfold refresh
  rw [recordBuffer_refreshRecord]
  unfold refreshCpuTimeRecord
  cases input.cpuTime with
  | none => rfl
  | some map => rfl

theorem cpuTimeBuffer_refresh_eq (topology : Topology F Trace) (input : RefreshInput F Trace) :
    (topology.refresh input).cpuTimeBuffer =
      Buffer.cpuTimeRecords.refresh (· / ·) sizeOfMultiValuedRecord topology.bufferMaxKbytes
        topology.cpuTimeBuffer (input.cpuTimeRecord topology.procTracker.nbCores) := by
  have cores := (topology.nbCores_refresh input).1
  rw [procTracker_refresh] at cores
  rw [← cores]
  unfold refresh refreshRecord refreshCpuTimeRecord RefreshInput.cpuTimeRecord
  cases input.cpuTime with
  | none => rfl
  | some map => rfl

/-- What one refresh adds to what is remembered. -/
theorem History.refresh {topology : Topology F Trace} {inputs : List (RefreshInput F Trace)}
    (history : topology.History inputs) (input : RefreshInput F Trace) :
    (topology.refresh input).History (inputs ++ [input]) := by
  have added : ∀ {Value : Type} (read : RefreshInput F Trace → Option Value),
      (inputs ++ [input]).filterMap read = inputs.filterMap read ++ (read input).toList := by
    intro Value read
    rw [List.filterMap_append]
    cases found : read input <;> simp [found]
  refine ⟨?_, ?_, ?_, ?_⟩
  · rw [bufferMaxKbytes_refresh]
    exact history.limit
  · rw [added, recordBuffer_refresh_eq]
    exact Buffer.topologyRecords.remembers_refresh (history.limit.wide (by decide))
      history.records _
  · rw [added, (topology.nbCores_refresh input).1, cpuTimeBuffer_refresh_eq]
    exact Buffer.cpuTimeRecords.remembers_refresh (history.limit.wide (by decide))
      history.cpuTimes _
  · intro index socket found
    rw [getElem?_refresh] at found
    obtain ⟨before, isBefore, rfl⟩ := Option.map_eq_some_iff.mp found
    rw [List.map_append]
    exact (history.sockets index before isBefore).refresh _ _ (input.socketInput index)

theorem history_run {topology : Topology F Trace} (fresh : topology.History [])
    (inputs : List (RefreshInput F Trace)) :
    (run Topology.refresh topology inputs).History inputs := by
  induction inputs using List.reverseRecOn with
  | nil => exact fresh
  | append_singleton inputs input ih =>
      rw [run_concat]
      exact ih.refresh input

/-- After any run of refreshes, whichever reads fail, each buffer is an end piece of what was
read for it and has its last two readings; the statistics stand the other way round. -/
theorem buffers_remember {topology : Topology F Trace} (fresh : topology.History [])
    (inputs : List (RefreshInput F Trace)) {statMaxKbytes : Nat} (limit : IsLimit statMaxKbytes)
    (statReadings : List (Option CPUStat)) :
    (run Topology.refresh topology inputs).History inputs ∧
      ∀ buffer ∈ [Buffer.topologyStats, Buffer.socketStats],
        Remembers (run (buffer.refresh (· / ·) sizeOfCPUStat statMaxKbytes) []
            statReadings).reverse statReadings.reduceOption ∧
          getStatsDiff (run (buffer.refresh (· / ·) sizeOfCPUStat statMaxKbytes) []
              statReadings) =
            (lastTwo statReadings.reduceOption).map fun pair => pair.2.diff pair.1 := by
  refine ⟨history_run fresh inputs, ?_⟩
  have wide : 2 * sizeOfCPUStat ≤ maxBytes statMaxKbytes := limit.wide (by decide)
  have ofTopology := Buffer.topologyStats.remembers_run wide statReadings
  have ofSocket := Buffer.socketStats.remembers_run wide statReadings
  refine List.forall_mem_cons.mpr ⟨?_, List.forall_mem_singleton.mpr ?_⟩
  · exact ⟨ofTopology, getStatsDiff_of_remembers ofTopology⟩
  · exact ⟨ofSocket, getStatsDiff_of_remembers ofSocket⟩

/-- A machine with one domain and one core, before its first refresh. -/
def unread : Topology ExactFloat Unit where
  sockets := [⟨0, [⟨0, "core".toList, [], 1, 0, .num 0, none⟩], [], 1, [], [⟨0, [], 1⟩], 0⟩]
  procTracker := ⟨[], 1, 5⟩
  recordBuffer := []
  bufferMaxKbytes := 1
  activationIdleBuffer := fun _ => []
  cpuTimeBuffer := []

theorem history_unread : unread.History [] := by
  have limit : IsLimit 1 := by decide
  refine ⟨limit, .nil, .nil, ?_⟩
  intro index socket found
  cases index with
  | succ index => simp [unread] at found
  | zero =>
      cases found
      refine ⟨limit, .nil, ?_, ?_⟩
      · intro position domain isDomain
        cases position with
        | succ position => simp at isDomain
        | zero =>
            cases isDomain
            exact ⟨limit, .nil⟩
      · intro position core isCore
        cases position with
        | succ position => simp at isCore
        | zero =>
            cases isCore
            exact ⟨limit, .nil⟩

/-- In the second `n` only every third read succeeds. -/
def thirdSecond (n : Nat) : RefreshInput ExactFloat Unit where
  now := n * 10 ^ 9
  drained := []
  socketReading := fun _ =>
    ⟨if n % 3 = 0 then some ⟨n * 10 ^ 9, toText n, .microJoule⟩ else none, fun _ => none⟩
  coreReading := fun _ _ => ⟨n * 10 ^ 9, 0, n, n, n, n, n, n, .num 0, .num 0, n⟩
  processes := []
  cpuTime := if n % 3 = 1 then some fun _ => some n else none
  energy := if n % 3 = 2 then some ⟨n * 10 ^ 9, toText n, .microJoule⟩ else none

theorem buffers_remember_third_seconds :
    (run Topology.refresh unread ((List.range 100).map thirdSecond)).History
      ((List.range 100).map thirdSecond) :=
  (buffers_remember history_unread ((List.range 100).map thirdSecond)
    (show IsLimit 65 by decide) []).1

end Topology

end ScaphandreFormal.Sensors
