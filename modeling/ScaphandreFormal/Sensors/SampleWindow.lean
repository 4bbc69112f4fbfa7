import ScaphandreFormal.Sensors.Background
import Mathlib.Data.List.Induction

/-!
# The window of a power sample

A batch of state events describes the time between two refreshes, and the
power recorded for it is taken from the last two energy records.  The socket
estimates before it reads its counter, so these are the records of the two
refreshes before the one that drained the batch.
-/

namespace ScaphandreFormal.Sensors

open Foundation Ebpf

variable {F Trace : Type} [Float64 F]

/-- The energy records that the refreshes of a run read for the socket at `index`. -/
def energyReadings (index : Nat) (inputs : List (RefreshInput F Trace)) : List (Record Text) :=
  inputs.filterMap fun input => (input.socketReading index).energy

namespace CPUSocket

/-- A refresh appends its reading and may drop records from the old end. -/
theorem recordBuffer_refresh (socket : CPUSocket F) (now : Nat) (records : List CpuStateEvent)
    (reading : SocketReading) (cores : Nat → CoreRecord F) :
    ((socket.refresh now records reading).refreshCores cores).recordBuffer <:+
      socket.recordBuffer ++ reading.energy.toList := by
  obtain ⟨domains, cpuCores, same⟩ := socket.refreshCores_refresh_eq now records reading cores
  simp only [same, refreshRecord]
  split
  · exact isSuffix_removeOldest _ _ _
  · exact List.suffix_rfl

/-- The newest estimates after a refresh are those recorded for its batch, and else those
from before. -/
theorem getLast?_refresh (socket : CPUSocket F) (now : Nat) (records : List CpuStateEvent)
    (reading : SocketReading) (cores : Nat → CoreRecord F) :
    ((socket.refresh now records reading).refreshCores cores).activationIdleBuffer.getLast? =
      (socket.readActivationIdleRecord now records).or socket.activationIdleBuffer.getLast? := by
  obtain ⟨domains, cpuCores, same⟩ := socket.refreshCores_refresh_eq now records reading cores
  have appended : (socket.refreshActivationIdleRecords now records).activationIdleBuffer.getLast? =
      (socket.readActivationIdleRecord now records).or socket.activationIdleBuffer.getLast? := by
    rw [refreshActivationIdleRecords, List.getLast?_append]
    cases socket.readActivationIdleRecord now records with
    | none => rfl
    | some record => rfl
  rw [← appended]
  simp only [same, refreshRecord]
  split
  · exact getLast?_removeOldest _ _ _
  · rfl

/-! ## What a batch records -/

/-- The power between the last two of some energy readings, before any subtraction. -/
def powerOver (socket : CPUSocket F) (readings : List (Record Text)) : Option Nat :=
  (lastTwo readings).bind fun pair => powerBetween F socket.raplMaxUj pair.1 pair.2

/-- What the socket records for a batch when its power sample is taken from these readings. -/
def recordedFrom (readings : List (Record Text)) (now : Nat) (records : List CpuStateEvent)
    (socket : CPUSocket F) : Option (MultiValuedRecord Text) :=
  ({ socket with recordBuffer := readings } : CPUSocket F).readActivationIdleRecord now records

/-- The estimate of the kind, zero when there is none. -/
def estimate (now : Nat) (kind : CpuEventType) (socket : CPUSocket F) : Nat :=
  valueOrZero (socket.getPowerMicrowatts kind now)

/-- The batch has an event of the kind. -/
def Concerns (records : List CpuStateEvent) (kind : CpuEventType) : Prop :=
  records.any (fun r => r.eventType = kind) = true

instance (records : List CpuStateEvent) (kind : CpuEventType) :
    Decidable (Concerns records kind) :=
  inferInstanceAs (Decidable (_ = true))

/-- The estimate of the kind after a batch whose power sample is `power`. -/
def estimateAfter (now : Nat) (records : List CpuStateEvent) (power : Nat)
    (kind : CpuEventType) (socket : CPUSocket F) : Nat :=
  if Concerns records kind then
    lowered (power - socket.backgroundPower now) (socket.estimate now kind)
  else socket.estimate now kind

/-- The record of a batch whose power sample is `power`. -/
def recordOf (now : Nat) (records : List CpuStateEvent) (socket : CPUSocket F) (power : Nat) :
    MultiValuedRecord Text where
  timestamp := now
  values := [toText (socket.estimateAfter now records power .idleEvent),
    toText (socket.estimateAfter now records power .activationEvent)]
  units := [.microWatt, .microWatt]

theorem readActivationIdleRecord_eq (socket : CPUSocket F) (now : Nat)
    (records : List CpuStateEvent) :
    socket.readActivationIdleRecord now records =
      if records = [] then none else socket.rawPower.map (socket.recordOf now records) := by
  unfold readActivationIdleRecord
  rw [power_eq]
  cases records with
  | nil => rfl
  | cons event rest =>
      have happened : ((event :: rest).any (fun r => r.eventType = .idleEvent) ||
          (event :: rest).any (fun r => r.eventType = .activationEvent)) = true := by
        cases kind : event.eventType <;> simp [kind]
      rw [if_pos happened, if_neg (List.cons_ne_nil event rest)]
      cases socket.rawPower with
      | none => rfl
      | some power => rfl

theorem recordedFrom_eq (readings : List (Record Text)) (now : Nat)
    (records : List CpuStateEvent) (socket : CPUSocket F) :
    socket.recordedFrom readings now records =
      if records = [] then none
      else (socket.powerOver readings).map (socket.recordOf now records) :=
  readActivationIdleRecord_eq { socket with recordBuffer := readings } now records

/-! ## Two samples for one batch -/

/-- An estimate takes the same value from the samples `power` and `other`. -/
def Indifferent (background estimate power other : Nat) : Prop :=
  power - background = other - background ∨
    estimate ≠ 0 ∧ estimate ≤ power - background ∧ estimate ≤ other - background

/-- The sample `power` leaves an estimate as it is. -/
def Unmoved (background estimate power : Nat) : Prop :=
  if estimate = 0 then power ≤ background else estimate ≤ power - background

theorem lowered_eq_lowered_iff (background estimate power other : Nat) :
    lowered (power - background) estimate = lowered (other - background) estimate ↔
      Indifferent background estimate power other := by
  unfold lowered Indifferent
  split
  · omega
  · omega

theorem lowered_eq_self_iff (background estimate power : Nat) :
    lowered (power - background) estimate = estimate ↔ Unmoved background estimate power := by
  unfold lowered Unmoved
  by_cases known : estimate ≠ 0
  · rw [if_pos known, if_neg known]
    omega
  · have zero : estimate = 0 := Classical.not_not.mp known
    rw [if_neg known, if_pos zero]
    omega

/-- For every kind of event in the batch the two samples lead to the same estimate. -/
def SameEstimates (now : Nat) (records : List CpuStateEvent) (power other : Nat)
    (socket : CPUSocket F) : Prop :=
  ∀ kind, Concerns records kind →
    Indifferent (socket.backgroundPower now) (socket.estimate now kind) power other

/-- The buffer already ends with the record of this clock reading and of the estimates that
the batch leaves. -/
def Repeats (now : Nat) (records : List CpuStateEvent) (power : Nat) (socket : CPUSocket F) :
    Prop :=
  socket.activationIdleBuffer.getLast? =
      some ⟨now, [toText (socket.estimate now .idleEvent),
        toText (socket.estimate now .activationEvent)], [.microWatt, .microWatt]⟩ ∧
    ∀ kind, Concerns records kind →
      Unmoved (socket.backgroundPower now) (socket.estimate now kind) power

instance (background estimate power other : Nat) :
    Decidable (Indifferent background estimate power other) :=
  inferInstanceAs (Decidable (_ ∨ _))

instance (background estimate power : Nat) : Decidable (Unmoved background estimate power) :=
  inferInstanceAs (Decidable (if estimate = 0 then _ else _))

instance (now : Nat) (records : List CpuStateEvent) (power other : Nat) (socket : CPUSocket F) :
    Decidable (socket.SameEstimates now records power other) :=
  inferInstanceAs (Decidable (∀ kind, Concerns records kind → _))

instance (now : Nat) (records : List CpuStateEvent) (power : Nat) (socket : CPUSocket F) :
    Decidable (socket.Repeats now records power) :=
  inferInstanceAs (Decidable (_ ∧ ∀ kind, Concerns records kind → _))

omit [Float64 F] in
theorem recordOf_eq_recordOf_iff (now : Nat) (records : List CpuStateEvent)
    (socket : CPUSocket F) (power other : Nat) :
    socket.recordOf now records power = socket.recordOf now records other ↔
      socket.SameEstimates now records power other := by
  have texts : socket.recordOf now records power = socket.recordOf now records other ↔
      ∀ kind, socket.estimateAfter now records power kind =
        socket.estimateAfter now records other kind := by
    constructor
    · intro same
      injection same with _ values _
      injection values with idle rest
      injection rest with activation _
      intro kind
      cases kind with
      | idleEvent => exact toText_injective idle
      | activationEvent => exact toText_injective activation
    · intro same
      unfold recordOf
      rw [same .idleEvent, same .activationEvent]
  rw [texts]
  refine forall_congr' fun kind => ?_
  unfold estimateAfter
  by_cases concerns : Concerns records kind
  · simp only [concerns, if_true, true_imp_iff]
    exact lowered_eq_lowered_iff _ _ _ _
  · simp [concerns]

omit [Float64 F] in
theorem estimate_le (now : Nat) (kind : CpuEventType) (socket : CPUSocket F) :
    socket.estimate now kind ≤ u64Max := by
  unfold estimate valueOrZero
  cases parsed : (socket.getPowerMicrowatts kind now).bind fun r => parseU64 r.value with
  | none => exact Nat.zero_le _
  | some value =>
      obtain ⟨record, _, isValue⟩ := Option.bind_eq_some_iff.mp parsed
      exact parseU64_le isValue

omit [Float64 F] in
theorem estimateAfter_le {power : Nat} (fits : power ≤ u64Max) (now : Nat)
    (records : List CpuStateEvent) (kind : CpuEventType) (socket : CPUSocket F) :
    socket.estimateAfter now records power kind ≤ u64Max := by
  unfold estimateAfter
  split
  · exact lowered_le ((Nat.sub_le _ _).trans fits) _
  · exact socket.estimate_le now kind

omit [Float64 F] in
theorem estimateAfter_eq_iff (now : Nat) (records : List CpuStateEvent) (power : Nat)
    (kind : CpuEventType) (socket : CPUSocket F) :
    socket.estimateAfter now records power kind = socket.estimate now kind ↔
      (Concerns records kind →
        Unmoved (socket.backgroundPower now) (socket.estimate now kind) power) := by
  unfold estimateAfter
  by_cases concerns : Concerns records kind
  · simp only [concerns, if_true, true_imp_iff]
    exact lowered_eq_self_iff _ _ _
  · simp [concerns]

omit [Float64 F] in
theorem getLast?_eq_recordOf_iff {power : Nat} (fits : power ≤ u64Max) (now : Nat)
    (records : List CpuStateEvent) (socket : CPUSocket F) :
    socket.activationIdleBuffer.getLast? = some (socket.recordOf now records power) ↔
      socket.Repeats now records power := by
  unfold Repeats
  simp only [← estimateAfter_eq_iff]
  constructor
  · intro last
    have kept : ∀ kind, socket.estimateAfter now records power kind =
        socket.estimate now kind := by
      intro kind
      have shown : valueOrZero (socket.getPowerMicrowatts kind now) =
          (parseU64 (toText (socket.estimateAfter now records power kind))).getD 0 := by
        cases kind with
        | idleEvent => simp [CPUSocket.getPowerMicrowatts, getIdlePowerMicrowatts, last, recordOf,
            valueOrZero]
        | activationEvent => simp [CPUSocket.getPowerMicrowatts, getActivationPowerMicrowatts,
            last, recordOf, valueOrZero]
      rw [parseU64_toText (estimateAfter_le fits now records kind socket)] at shown
      exact shown.symm
    refine ⟨?_, kept⟩
    rw [last, recordOf, kept, kept]
  · rintro ⟨last, kept⟩
    rw [last, recordOf, kept, kept]

omit [Float64 F] in
/-- A record of the sample `power`, when it is a new one, is that of another sample just when
both lead to the same estimates. -/
theorem recordOf_iff {power : Nat} (fits : power ≤ u64Max) (now : Nat)
    (records : List CpuStateEvent) (socket : CPUSocket F) (sample : Option Nat) :
    (some (socket.recordOf now records power) ≠ socket.activationIdleBuffer.getLast? →
      some (socket.recordOf now records power) = sample.map (socket.recordOf now records)) ↔
      (∃ other ∈ sample, socket.SameEstimates now records power other) ∨
        socket.Repeats now records power := by
  rw [← getLast?_eq_recordOf_iff fits]
  simp only [← recordOf_eq_recordOf_iff]
  constructor
  · intro sampled
    by_cases there : socket.activationIdleBuffer.getLast? =
        some (socket.recordOf now records power)
    · exact Or.inr there
    · obtain ⟨other, isSample, same⟩ := Option.map_eq_some_iff.mp (sampled (Ne.symm there)).symm
      exact Or.inl ⟨other, isSample, same.symm⟩
  · rintro (⟨other, isSample, same⟩ | there) changed
    · rw [Option.mem_def.mp isSample, same, Option.map_some]
    · exact absurd there.symm changed

end CPUSocket

namespace Topology

/-- After every run the buffer of a socket is an end piece of what was read for it. -/
theorem recordBuffer_run (index : Nat) (topology : Topology F Trace)
    (fresh : ∀ socket ∈ topology.sockets[index]?, socket.recordBuffer = [])
    (inputs : List (RefreshInput F Trace)) :
    ∀ socket ∈ (run refresh topology inputs).sockets[index]?,
      socket.recordBuffer <:+ energyReadings index inputs := by
  induction inputs using List.reverseRecOn with
  | nil =>
      intro socket atIndex
      rw [fresh socket atIndex]
      exact List.nil_suffix
  | append_singleton inputs input ih =>
      intro socket atIndex
      rw [run_concat, Topology.getElem?_refresh] at atIndex
      obtain ⟨before, isBefore, rfl⟩ := Option.map_eq_some_iff.mp atIndex
      have last : energyReadings index [input] = (input.socketReading index).energy.toList := by
        unfold energyReadings
        cases reading : (input.socketReading index).energy with
        | none => simp [reading]
        | some record => simp [reading]
      have appended : energyReadings index (inputs ++ [input]) =
          energyReadings index inputs ++ (input.socketReading index).energy.toList := by
        rw [← last]
        exact List.filterMap_append
      rw [appended]
      refine (CPUSocket.recordBuffer_refresh _ _ _ _ _).trans ?_
      obtain ⟨dropped, whole⟩ := ih before isBefore
      exact ⟨dropped, by rw [← whole, List.append_assoc]⟩

/-- When the refresh `input` puts a new record at the end of the estimates of the socket, it
is the one that the socket records for its batch from the energy readings of that refresh and
of the one before it. -/
def SampledInWindow (index : Nat) (topology : Topology F Trace)
    (earlier : List (RefreshInput F Trace)) (input : RefreshInput F Trace) : Prop :=
  ∀ socket ∈ (run refresh topology earlier).sockets[index]?,
    ∀ refreshed ∈ (run refresh topology (earlier ++ [input])).sockets[index]?,
      refreshed.activationIdleBuffer.getLast? ≠ socket.activationIdleBuffer.getLast? →
      refreshed.activationIdleBuffer.getLast? =
        socket.recordedFrom (energyReadings index (earlier ++ [input])) input.now
          ((run refresh topology earlier).batchOf input.drained index)

/-- There is nothing to record, as the batch is empty or the buffer gives no power; or the
powers between the last two readings before the refresh and between the last two after it
lead to the same estimates; or the record is there already. -/
def SamplesAgree (index : Nat) (topology : Topology F Trace)
    (earlier : List (RefreshInput F Trace)) (input : RefreshInput F Trace) : Prop :=
  ∀ socket ∈ (run refresh topology earlier).sockets[index]?,
    let batch := (run refresh topology earlier).batchOf input.drained index
    batch = [] ∨ socket.rawPower = none ∨
      ∃ power ∈ socket.powerOver (energyReadings index earlier),
        (∃ other ∈ socket.powerOver (energyReadings index (earlier ++ [input])),
          socket.SameEstimates input.now batch power other) ∨
        socket.Repeats input.now batch power

instance (index : Nat) (topology : Topology F Trace) (earlier : List (RefreshInput F Trace))
    (input : RefreshInput F Trace) : Decidable (SampledInWindow index topology earlier input) :=
  inferInstanceAs (Decidable (∀ socket ∈ (run refresh topology earlier).sockets[index]?,
    ∀ refreshed ∈ (run refresh topology (earlier ++ [input])).sockets[index]?, _ → _))

instance (index : Nat) (topology : Topology F Trace) (earlier : List (RefreshInput F Trace))
    (input : RefreshInput F Trace) : Decidable (SamplesAgree index topology earlier input) :=
  inferInstanceAs (Decidable (∀ socket ∈ (run refresh topology earlier).sockets[index]?,
    _ ∨ _ ∨ ∃ power ∈ socket.powerOver (energyReadings index earlier), (∃ other ∈ _, _) ∨ _))

/-- A power that the buffer gives is the one between the last two readings. -/
theorem powerOver_of_rawPower {index : Nat} {topology : Topology F Trace}
    (fresh : ∀ socket ∈ topology.sockets[index]?, socket.recordBuffer = [])
    {earlier : List (RefreshInput F Trace)} {socket : CPUSocket F}
    (atIndex : (run refresh topology earlier).sockets[index]? = some socket) {power : Nat}
    (isPower : socket.rawPower = some power) :
    socket.powerOver (energyReadings index earlier) = some power := by
  have isSuffix := recordBuffer_run index topology fresh earlier socket atIndex
  obtain ⟨pair, found, between⟩ := Option.bind_eq_some_iff.mp isPower
  rw [CPUSocket.powerOver, lastTwo_of_suffix isSuffix found]
  exact between

/-- Whatever a refresh records is sampled in the window of its batch just when the samples of
the two windows agree for the batch. -/
theorem sampledInWindow_iff (index : Nat) (topology : Topology F Trace)
    (fresh : ∀ socket ∈ topology.sockets[index]?, socket.recordBuffer = [])
    (earlier : List (RefreshInput F Trace)) (input : RefreshInput F Trace) :
    SampledInWindow index topology earlier input ↔
      SamplesAgree index topology earlier input := by
  unfold SampledInWindow SamplesAgree
  rw [run_concat, getElem?_refresh]
  refine forall_congr' fun socket => forall_congr' fun atIndex => ?_
  rw [Option.mem_def.mp atIndex]
  simp only [Option.map_some, Option.mem_def, Option.some.injEq, forall_eq',
    CPUSocket.getLast?_refresh, CPUSocket.readActivationIdleRecord_eq,
    CPUSocket.recordedFrom_eq]
  by_cases empty : (run refresh topology earlier).batchOf input.drained index = []
  · simp [empty]
  · cases isPower : socket.rawPower with
    | none => simp [empty]
    | some power =>
        have fits : power ≤ u64Max := by
          obtain ⟨pair, _, between⟩ := Option.bind_eq_some_iff.mp isPower
          exact CPUSocket.powerBetween_le between
        simp only [empty, if_false, Option.map_some, Option.some_or,
          powerOver_of_rawPower fresh atIndex isPower, false_or, reduceCtorEq,
          Option.some.injEq, exists_eq_left']
        exact CPUSocket.recordOf_iff fits _ _ _ _

/-- Ten microwatts in both windows: the idle batch is given the power of its own. -/
theorem sampledInWindow_iff_steady_power :
    ((run refresh Observed.oneSocket [Observed.refreshAt 1 0 [], Observed.refreshAt 2 10 [],
        Observed.refreshAt 3 20 [.idleEvent]]).sockets.map fun socket =>
          socket.activationIdleBuffer) =
        [[⟨3 * 10 ^ 9, [['1', '0'], ['0']], [.microWatt, .microWatt]⟩]] ∧
      SampledInWindow 0 Observed.oneSocket
        [Observed.refreshAt 1 0 [], Observed.refreshAt 2 10 []]
        (Observed.refreshAt 3 20 [.idleEvent]) :=
  ⟨by decide +kernel, (sampledInWindow_iff 0 Observed.oneSocket
    (fun socket found => by cases found; rfl)
    [Observed.refreshAt 1 0 [], Observed.refreshAt 2 10 []]
    (Observed.refreshAt 3 20 [.idleEvent])).mpr (by decide +kernel)⟩

/-- The power rises between the second and the third refresh; the idle batch drained at the
third is given the power between the first two. -/
theorem not_sampledInWindow_of_rising_power :
    ((run refresh Observed.oneSocket [Observed.refreshAt 1 0 [], Observed.refreshAt 2 10 [],
        Observed.refreshAt 3 35 [.idleEvent]]).sockets.map fun socket =>
          socket.activationIdleBuffer) =
        [[⟨3 * 10 ^ 9, [['1', '0'], ['0']], [.microWatt, .microWatt]⟩]] ∧
      ¬ SampledInWindow 0 Observed.oneSocket
        [Observed.refreshAt 1 0 [], Observed.refreshAt 2 10 []]
        (Observed.refreshAt 3 35 [.idleEvent]) :=
  ⟨by decide +kernel, by decide +kernel⟩

end Topology

end ScaphandreFormal.Sensors
