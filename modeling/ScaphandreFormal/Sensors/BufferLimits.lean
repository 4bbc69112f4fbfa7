import ScaphandreFormal.Foundation.Trace
import ScaphandreFormal.Sensors.Background

/-!
# The memory limits of the buffers

Eight functions prune the buffers of the topology.  Each compares the size of a
buffer with the limit, computed in sixteen bits, and removes whole entries when
the excess is larger than one entry.  Most of them run a loop `1..n` over the
number `n` of entries in the excess; the one for CPU times runs `0..n`; the one
for the energy of the host cuts the size to sixteen bits before it compares.

An excess of at most one entry is left alone by all of them, and since a refresh
adds one entry, a buffer that has reached its limit never gets below it again.
-/

namespace ScaphandreFormal.Sensors

open Foundation

variable {Entry : Type}

/-! ## The pruning functions -/

/-- The passes of the loop `first..n` for the excess of a buffer.  `quotient` is the `f32`
division of two sizes, cut to an integer. -/
def passes (quotient : Nat → Nat → Nat) (first size limit count : Nat) : Nat :=
  let currSize := size * count
  if limit < currSize then
    let sizeDiff := currSize - limit
    if size < sizeDiff then quotient sizeDiff size - first else 0
  else 0

/-- The same for the host, where the size is compared as a `u16`. -/
def hostPasses (quotient : Nat → Nat → Nat) (size limit count : Nat) : Nat :=
  let currSize := size * count
  if limit < currSize % 2 ^ 16 then
    let sizeDiff := currSize - limit
    if size < sizeDiff then quotient sizeDiff size - 1 else 0
  else 0

/-- The buffers and the functions that prune them. -/
inductive Buffer where
  /-- `clean_old_records` of the topology. -/
  | topologyRecords
  /-- `clean_old_stats` of the topology. -/
  | topologyStats
  /-- `clean_old_records` of a socket, on its energy records. -/
  | socketRecords
  /-- `clean_old_records` of a socket, on its idle and activation records. -/
  | socketActivationIdle
  /-- `clean_old_stats` of a socket. -/
  | socketStats
  /-- `clean_old_records` of a core. -/
  | coreRecords
  /-- `clean_old_records` of a domain. -/
  | domainRecords
  /-- `clean_old_cpu_time_records`. -/
  | cpuTimeRecords
  deriving DecidableEq, Repr

namespace Buffer

/-- How many entries the function removes from `count` of them. -/
def removals (buffer : Buffer) (quotient : Nat → Nat → Nat) (size limit count : Nat) : Nat :=
  match buffer with
  | topologyRecords => hostPasses quotient size limit count
  | cpuTimeRecords => passes quotient 0 size limit count
  | topologyStats | socketRecords | socketActivationIdle | socketStats | coreRecords
  | domainRecords => passes quotient 1 size limit count

/-- The content that the function leaves.  Statistics are stored newest first and removed
from the end, everything else is stored newest last and removed from the front. -/
def clean (buffer : Buffer) (quotient : Nat → Nat → Nat) (size bufferMaxKbytes : Nat)
    (content : List Entry) : List Entry :=
  let removed := buffer.removals quotient size (maxBytes bufferMaxKbytes) content.length
  match buffer with
  | topologyStats | socketStats => content.take (content.length - removed)
  | topologyRecords | socketRecords | socketActivationIdle | coreRecords | domainRecords
  | cpuTimeRecords => content.drop removed

/-- What a refresh that reads `reading` hands to the pruning function, if it calls it.  The
statistics of a socket are pruned before the new entry is stored. -/
def handed (buffer : Buffer) (reading : Option Entry) (content : List Entry) :
    Option (List Entry) :=
  match buffer with
  | topologyStats => reading.map fun entry => entry :: content
  | cpuTimeRecords => reading.map fun entry => content ++ [entry]
  | socketStats => if content = [] then none else some content
  | topologyRecords | socketRecords | socketActivationIdle | coreRecords | domainRecords =>
      if content ++ reading.toList = [] then none else some (content ++ reading.toList)

/-- The buffer after a refresh. -/
def refresh (buffer : Buffer) (quotient : Nat → Nat → Nat) (size bufferMaxKbytes : Nat)
    (content : List Entry) (reading : Option Entry) : List Entry :=
  let pruned := ((buffer.handed reading content).map
    (buffer.clean quotient size bufferMaxKbytes)).getD content
  match buffer with
  | socketStats => reading.toList ++ pruned
  | topologyRecords | topologyStats | socketRecords | socketActivationIdle | coreRecords
  | domainRecords | cpuTimeRecords => pruned

/-! ## One refresh -/

/-- The pruning function computes the limit and the size without wrapping, and leaves at
most `buffer_max_kbytes * 1000` bytes. -/
def Respects (buffer : Buffer) (quotient : Nat → Nat → Nat) (size bufferMaxKbytes : Nat)
    (content : List Entry) (reading : Option Entry) : Prop :=
  ∀ given ∈ buffer.handed reading content,
    bufferMaxKbytes * 1000 < 2 ^ 16 ∧
      (buffer = topologyRecords → size * given.length < 2 ^ 16) ∧
      size * (buffer.clean quotient size bufferMaxKbytes given).length ≤ bufferMaxKbytes * 1000

/-- The limit is at most 65 kilobytes, and the buffer is within it before it is pruned. -/
def Fits (buffer : Buffer) (size bufferMaxKbytes : Nat) (content : List Entry)
    (reading : Option Entry) : Prop :=
  ∀ given ∈ buffer.handed reading content,
    bufferMaxKbytes ≤ 65 ∧ size * given.length ≤ bufferMaxKbytes * 1000

/-- The buffer is within the limit where a refresh starts; the statistics of a socket may be
one entry over. -/
def WithinLimit (buffer : Buffer) (size bufferMaxKbytes : Nat) (content : List Entry) : Prop :=
  match buffer with
  | socketStats => size * content.length ≤ bufferMaxKbytes * 1000 + size
  | topologyRecords | topologyStats | socketRecords | socketActivationIdle | coreRecords
  | domainRecords | cpuTimeRecords => size * content.length ≤ bufferMaxKbytes * 1000

variable {buffer : Buffer} {quotient : Nat → Nat → Nat} {size bufferMaxKbytes : Nat}
  {content given : List Entry} {reading : Option Entry}

/-- An excess of at most one entry is left alone. -/
theorem removals_eq_zero (buffer : Buffer) (quotient : Nat → Nat → Nat) {size limit count : Nat}
    (small : size * count ≤ limit + size) : buffer.removals quotient size limit count = 0 := by
  have noPass : ∀ first, passes quotient first size limit count = 0 := by
    intro first
    simp only [passes, if_neg (show ¬ size < size * count - limit by omega), ite_self]
  have noHostPass : hostPasses quotient size limit count = 0 := by
    simp only [hostPasses, if_neg (show ¬ size < size * count - limit by omega), ite_self]
  cases buffer <;> simp only [removals, noPass, noHostPass]

theorem maxBytes_eq (unwrapped : bufferMaxKbytes * 1000 < 2 ^ 16) :
    maxBytes bufferMaxKbytes = bufferMaxKbytes * 1000 :=
  Nat.mod_eq_of_lt unwrapped

theorem clean_eq_self (unwrapped : bufferMaxKbytes * 1000 < 2 ^ 16)
    (small : size * given.length ≤ bufferMaxKbytes * 1000 + size) :
    buffer.clean quotient size bufferMaxKbytes given = given := by
  unfold clean
  rw [maxBytes_eq unwrapped, removals_eq_zero buffer quotient small]
  cases buffer <;> simp

theorem Fits.respects (fits : buffer.Fits size bufferMaxKbytes content reading) :
    buffer.Respects quotient size bufferMaxKbytes content reading := by
  intro given isGiven
  obtain ⟨small, within⟩ := fits given isGiven
  have unwrapped : bufferMaxKbytes * 1000 < 2 ^ 16 := by omega
  refine ⟨unwrapped, fun _ => within.trans_lt unwrapped, ?_⟩
  rwa [clean_eq_self unwrapped (within.trans (Nat.le_add_right _ _))]

theorem Respects.fits (respects : buffer.Respects quotient size bufferMaxKbytes content reading)
    (near : ∀ given ∈ buffer.handed reading content,
      size * given.length ≤ bufferMaxKbytes * 1000 + size) :
    buffer.Fits size bufferMaxKbytes content reading := by
  intro given isGiven
  obtain ⟨unwrapped, _, within⟩ := respects given isGiven
  rw [clean_eq_self unwrapped (near given isGiven)] at within
  exact ⟨by omega, within⟩

/-- Except for the statistics of a socket, a refresh adds one entry before it prunes. -/
theorem length_handed (isGiven : given ∈ buffer.handed reading content) :
    given.length ≤ content.length + 1 ∧ (buffer = socketStats → given = content) := by
  have pushed : (content ++ reading.toList).length ≤ content.length + 1 := by
    cases reading <;> simp
  cases buffer <;> simp only [handed, Option.mem_def, Option.map_eq_some_iff] at isGiven
  case topologyStats | cpuTimeRecords =>
    obtain ⟨entry, _, rfl⟩ := isGiven
    simp
  case socketStats =>
    split at isGiven
    · cases isGiven
    · cases isGiven
      exact ⟨Nat.le_succ _, fun _ => rfl⟩
  all_goals
    split at isGiven
    · cases isGiven
    · cases isGiven
      exact ⟨pushed, by simp⟩

theorem WithinLimit.handed (within : buffer.WithinLimit size bufferMaxKbytes content) :
    ∀ given ∈ buffer.handed reading content,
      size * given.length ≤ bufferMaxKbytes * 1000 + size := by
  intro given isGiven
  obtain ⟨longer, unchanged⟩ := length_handed isGiven
  have scaled : size * given.length ≤ size * content.length + size :=
    Nat.mul_le_mul_left size longer
  by_cases stats : buffer = socketStats
  · subst stats
    rw [unchanged rfl]
    exact within
  · have inside : size * content.length ≤ bufferMaxKbytes * 1000 := by
      cases buffer <;> first | exact absurd rfl stats | exact within
    omega

/-- A refresh that respects the limit leaves a buffer within it. -/
theorem Respects.withinLimit
    (respects : buffer.Respects quotient size bufferMaxKbytes content reading)
    (within : buffer.WithinLimit size bufferMaxKbytes content) :
    buffer.WithinLimit size bufferMaxKbytes
      (buffer.refresh quotient size bufferMaxKbytes content reading) := by
  cases called : buffer.handed reading content with
  | none =>
      have kept : content = [] → size * content.length ≤ bufferMaxKbytes * 1000 := by
        rintro rfl
        exact Nat.zero_le _
      have one : size * (reading.toList ++ ([] : List Entry)).length ≤
          bufferMaxKbytes * 1000 + size := by
        cases reading <;> simp
      cases buffer <;> simp_all [refresh, WithinLimit, Buffer.handed]
  | some given =>
      have left := (respects given called).2.2
      have pruned : ((buffer.handed reading content).map
          (buffer.clean quotient size bufferMaxKbytes)).getD content =
            buffer.clean quotient size bufferMaxKbytes given := by
        rw [called]
        rfl
      have one :
          size * (reading.toList ++ buffer.clean quotient size bufferMaxKbytes given).length ≤
            size * (buffer.clean quotient size bufferMaxKbytes given).length + size := by
        cases reading <;> simp [Nat.mul_add]
      unfold refresh WithinLimit
      rw [pruned]
      cases buffer <;> first | exact left | exact one.trans (Nat.add_le_add_right left _)

theorem meets_respects_iff (within : buffer.WithinLimit size bufferMaxKbytes content)
    (readings : List (Option Entry)) :
    Meets (buffer.refresh quotient size bufferMaxKbytes)
        (buffer.Respects quotient size bufferMaxKbytes) content readings ↔
      Meets (buffer.refresh quotient size bufferMaxKbytes)
        (buffer.Fits size bufferMaxKbytes) content readings := by
  induction readings generalizing content with
  | nil => exact Iff.rfl
  | cons reading rest ih =>
      constructor
      · rintro ⟨here, later⟩
        exact ⟨here.fits within.handed, (ih (here.withinLimit within)).mp later⟩
      · rintro ⟨here, later⟩
        have respects : buffer.Respects quotient size bufferMaxKbytes content reading :=
          here.respects
        exact ⟨respects, (ih (respects.withinLimit within)).mpr later⟩

/-- In a run of refreshes from any content, each pruning respects the limit when each finds
the limit at most 65 kilobytes and the buffer already within it; from a buffer within the
limit, only then. -/
theorem respects_of_fits (buffer : Buffer) (quotient : Nat → Nat → Nat)
    (size bufferMaxKbytes : Nat) (content : List Entry) (readings : List (Option Entry)) :
    (Meets (buffer.refresh quotient size bufferMaxKbytes) (buffer.Fits size bufferMaxKbytes)
        content readings →
      Meets (buffer.refresh quotient size bufferMaxKbytes)
        (buffer.Respects quotient size bufferMaxKbytes) content readings) ∧
    (buffer.WithinLimit size bufferMaxKbytes content →
      (Meets (buffer.refresh quotient size bufferMaxKbytes)
          (buffer.Respects quotient size bufferMaxKbytes) content readings ↔
        Meets (buffer.refresh quotient size bufferMaxKbytes) (buffer.Fits size bufferMaxKbytes)
          content readings)) := by
  refine ⟨?_, fun within => meets_respects_iff within readings⟩
  intro fits
  exact meets_of_invariant (fun _ => True) (fun _ _ _ _ => trivial)
    (fun _ _ _ here => Fits.respects here) trivial fits

/-- A socket may keep 20 records of 48 bytes in a kilobyte. -/
theorem respects_of_fits_socket_records :
    Meets (socketRecords.refresh (· / ·) 48 1) (socketRecords.Respects (· / ·) 48 1) []
      (List.replicate 20 (some ())) := by
  have fits : Meets (socketRecords.refresh (· / ·) 48 1) (socketRecords.Fits 48 1) []
      (List.replicate 20 (some ())) := by
    unfold Fits
    decide
  exact (respects_of_fits socketRecords (· / ·) 48 1 [] _).1 fits

/-- The 21st record exceeds the limit by less than a record, and nothing is removed. -/
theorem not_respects_of_21_records :
    ¬ Meets (domainRecords.refresh (· / ·) 48 1) (domainRecords.Respects (· / ·) 48 1) []
      (List.replicate 21 (some ())) := by
  unfold Respects
  decide

end Buffer

/-! ## The buffers of the topology -/

section Topology

open Buffer

variable {F Trace : Type}

/-- A buffer that is pruned after the reading was appended, with or without a reading. -/
theorem refresh_eq_removeOldest {buffer : Buffer}
    (appends : buffer = socketRecords ∨ buffer = socketActivationIdle ∨ buffer = coreRecords ∨
      buffer = domainRecords) (size bufferMaxKbytes : Nat) (content : List Entry)
    (reading : Option Entry) :
    buffer.refresh (· / ·) size bufferMaxKbytes content reading =
      removeOldest size (maxBytes bufferMaxKbytes) (content ++ reading.toList) := by
  have pruned : ((if content ++ reading.toList = [] then none
      else some (content ++ reading.toList)).map fun given =>
        removeOldest size (maxBytes bufferMaxKbytes) given).getD content =
      removeOldest size (maxBytes bufferMaxKbytes) (content ++ reading.toList) := by
    split
    · rename_i nothing
      rw [nothing, (List.append_eq_nil_iff.mp nothing).1]
      rfl
    · rfl
  rcases appends with rfl | rfl | rfl | rfl <;> exact pruned

theorem Domain.recordBuffer_refreshRecord (domain : Domain F) (reading : Option (Record Text)) :
    (domain.refreshRecord reading).recordBuffer =
      domainRecords.refresh (· / ·) sizeOfRecord domain.bufferMaxKbytes domain.recordBuffer
        reading := by
  rw [refresh_eq_removeOldest (by simp)]
  rfl

theorem CPUCore.recordBuffer_refreshRecord (core : CPUCore F) (reading : CoreRecord F) :
    (core.refreshRecord reading).recordBuffer =
      coreRecords.refresh (· / ·) sizeOfMultiValuedRecord core.bufferMaxKbytes core.recordBuffer
        (some reading) := by
  rw [refresh_eq_removeOldest (by simp)]
  rfl

theorem CPUSocket.recordBuffer_refreshRecord (socket : CPUSocket F)
    (reading : Option (Record Text)) :
    (socket.refreshRecord reading).recordBuffer =
      socketRecords.refresh (· / ·) sizeOfRecord socket.bufferMaxKbytes socket.recordBuffer
        reading := by
  rw [refresh_eq_removeOldest (by simp), CPUSocket.refreshRecord]
  split
  · rfl
  · rename_i nothing
    rw [show socket.recordBuffer ++ reading.toList = [] from not_not.mp nothing]
    exact not_not.mp nothing

/-- Estimates are recorded where there is a power, and so beside energy records. -/
theorem CPUSocket.activationIdleBuffer_refresh [Float64 F] (socket : CPUSocket F) (now : Nat)
    (records : List Ebpf.CpuStateEvent) (reading : SocketReading)
    (recorded : pushRecord socket.recordBuffer reading.energy ≠ []) :
    (socket.refresh now records reading).activationIdleBuffer =
      socketActivationIdle.refresh (· / ·) sizeOfMultiValuedRecord socket.bufferMaxKbytes
        socket.activationIdleBuffer (socket.readActivationIdleRecord now records) := by
  obtain ⟨domains, distributed⟩ :=
    (socket.refreshActivationIdleRecords now records).distribute_eq now
  rw [refresh_eq_removeOldest (by simp), CPUSocket.refresh, distributed, CPUSocket.refreshRecord]
  simp only
  split
  · rfl
  · rename_i nothing
    exact absurd recorded nothing

theorem Topology.recordBuffer_refreshRecord (topology : Topology F Trace)
    (input : RefreshInput F Trace) :
    (topology.refreshRecord input).recordBuffer =
      topologyRecords.refresh (· / ·) sizeOfRecord topology.bufferMaxKbytes topology.recordBuffer
        input.energy := by
  unfold Topology.refreshRecord Buffer.refresh Buffer.handed
  simp only
  split
  · rename_i nothing
    rw [show pushRecord topology.recordBuffer input.energy = [] from nothing,
      (List.append_eq_nil_iff.mp nothing).1]
    rfl
  · rfl

theorem Topology.cpuTimeBuffer_refreshCpuTimeRecord (topology : Topology F Trace)
    (input : RefreshInput F Trace) :
    ∃ reading : Option (MultiValuedRecord Text),
      (topology.refreshCpuTimeRecord input).cpuTimeBuffer =
        cpuTimeRecords.refresh (· / ·) sizeOfMultiValuedRecord topology.bufferMaxKbytes
          topology.cpuTimeBuffer reading := by
  unfold Topology.refreshCpuTimeRecord
  split
  · exact ⟨some _, rfl⟩
  · exact ⟨none, rfl⟩

end Topology

end ScaphandreFormal.Sensors
