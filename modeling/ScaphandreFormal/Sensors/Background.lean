import ScaphandreFormal.Foundation.Trace
import ScaphandreFormal.Sensors.Topology

/-!
# The background estimator

A socket takes its idle and activation estimates from the power it reports,
from which the background, the larger of the two estimates, has already been
subtracted.  `Shows` says what the last record of the estimate buffer stands
for and `nextEstimates` what a refresh makes of it; the rest compares the
estimates with the minima of the power before the subtraction.
-/

namespace ScaphandreFormal.Sensors

open Foundation Ebpf

variable {F Trace : Type} [Float64 F]

/-- The two estimates, in microwatts; zero stands for none. -/
structure Estimates where
  idle : Nat
  activation : Nat
  deriving DecidableEq, Repr

namespace Estimates

def background (estimates : Estimates) : Nat := max estimates.idle estimates.activation

/-- Both are `u64` values. -/
def Fits (estimates : Estimates) : Prop :=
  estimates.idle ≤ u64Max ∧ estimates.activation ≤ u64Max

end Estimates

namespace CPUSocket

/-- The power of the last two energy records before any background is subtracted. -/
def rawPower (socket : CPUSocket F) : Option Nat :=
  (lastTwo socket.recordBuffer).bind fun pair =>
    powerBetween F socket.raplMaxUj pair.1 pair.2

/-- The background of the socket as a number. -/
def backgroundPower (now : Nat) (socket : CPUSocket F) : Nat :=
  valueOrZero (socket.getBackgroundPowerMicrowatts now)

/-- The buffer ends with a record of these estimates, or is empty when there is none. -/
def Shows (socket : CPUSocket F) : Option Estimates → Prop
  | none => socket.activationIdleBuffer = []
  | some estimates => estimates.Fits ∧ ∃ timestamp units,
      socket.activationIdleBuffer.getLast? =
        some ⟨timestamp, [toText estimates.idle, toText estimates.activation], units⟩

/-! ## Reading the estimates back -/

omit [Float64 F] in
theorem getIdle_of_shows_none {socket : CPUSocket F} (shows : socket.Shows none) (now : Nat) :
    socket.getIdlePowerMicrowatts now = none ∧
      socket.getActivationPowerMicrowatts now = none := by
  change socket.activationIdleBuffer = [] at shows
  simp [getIdlePowerMicrowatts, getActivationPowerMicrowatts, shows]

omit [Float64 F] in
theorem getIdle_of_shows_some {socket : CPUSocket F} {estimates : Estimates}
    (shows : socket.Shows (some estimates)) (now : Nat) :
    socket.getIdlePowerMicrowatts now = some ⟨now, toText estimates.idle, .microWatt⟩ ∧
      socket.getActivationPowerMicrowatts now =
        some ⟨now, toText estimates.activation, .microWatt⟩ := by
  obtain ⟨_, timestamp, units, last⟩ := shows
  simp [getIdlePowerMicrowatts, getActivationPowerMicrowatts, last]

/-- The estimates that a socket shows, zero where there is none. -/
def stored : Option Estimates → Estimates
  | none => ⟨0, 0⟩
  | some estimates => estimates

omit [Float64 F] in
theorem stored_fits {socket : CPUSocket F} {shown : Option Estimates}
    (shows : socket.Shows shown) : (stored shown).Fits := by
  cases shown with
  | none => exact ⟨Nat.zero_le _, Nat.zero_le _⟩
  | some estimates => exact shows.1

omit [Float64 F] in
theorem values_of_shows {socket : CPUSocket F} {shown : Option Estimates}
    (shows : socket.Shows shown) (now : Nat) :
    valueOrZero (socket.getIdlePowerMicrowatts now) = (stored shown).idle ∧
      valueOrZero (socket.getActivationPowerMicrowatts now) = (stored shown).activation := by
  cases shown with
  | none =>
      obtain ⟨idle, activation⟩ := getIdle_of_shows_none shows now
      rw [idle, activation]
      exact ⟨rfl, rfl⟩
  | some estimates =>
      obtain ⟨idle, activation⟩ := getIdle_of_shows_some shows now
      rw [idle, activation]
      simp [valueOrZero, stored, parseU64_toText shows.1.1, parseU64_toText shows.1.2]

omit [Float64 F] in
theorem background_of_shows {socket : CPUSocket F} {shown : Option Estimates}
    (shows : socket.Shows shown) (now : Nat) :
    valueOrZero (socket.getBackgroundPowerMicrowatts now) = (stored shown).background := by
  obtain ⟨idle, activation⟩ := values_of_shows shows now
  have fits := stored_fits shows
  have bounded : (stored shown).background ≤ u64Max := Nat.max_le.mpr fits
  unfold getBackgroundPowerMicrowatts
  rw [idle, activation]
  change (parseU64 (toText (stored shown).background)).getD 0 = _
  rw [parseU64_toText bounded]
  rfl

theorem powerBetween_le {raplMaxUj : Nat} {previous last : Record Text} {power : Nat}
    (found : powerBetween F raplMaxUj previous last = some power) : power ≤ u64Max := by
  unfold powerBetween at found
  split at found
  · cases found
    exact Float64.asU64_le _
  · cases found

/-- The reported power is the power before the subtraction, less the background. -/
theorem power_eq (socket : CPUSocket F) (now : Nat) :
    ((socket.getRecordsDiffPowerMicrowatts now).bind fun r => parseU64 r.value) =
      socket.rawPower.map fun power =>
        power - valueOrZero (socket.getBackgroundPowerMicrowatts now) := by
  unfold getRecordsDiffPowerMicrowatts diffPower rawPower
  cases lastTwo socket.recordBuffer with
  | none => rfl
  | some pair =>
      obtain ⟨previous, last⟩ := pair
      cases between : powerBetween F socket.raplMaxUj previous last with
      | none => simp [between]
      | some power =>
          have bounded : power - valueOrZero (socket.getBackgroundPowerMicrowatts now) ≤ u64Max :=
            Nat.le_trans (Nat.sub_le _ _) (powerBetween_le between)
          simp [between, parseU64_toText bounded]

theorem power_of_shows {socket : CPUSocket F} {shown : Option Estimates}
    (shows : socket.Shows shown) (now : Nat) :
    ((socket.getRecordsDiffPowerMicrowatts now).bind fun r => parseU64 r.value) =
      socket.rawPower.map fun power => power - (stored shown).background := by
  rw [power_eq, background_of_shows shows now]

end CPUSocket

/-! ## One refresh -/

/-- What the estimator sees of one batch: which kinds of events it contains, and the power
before any subtraction when there is one. -/
structure Sample where
  idle : Bool
  activation : Bool
  power : Option Nat
  deriving DecidableEq, Repr

def sampleOf (records : List CpuStateEvent) (power : Option Nat) : Sample where
  idle := records.any fun r => r.eventType = .idleEvent
  activation := records.any fun r => r.eventType = .activationEvent
  power := power

/-- The estimates after a sample. -/
def nextEstimates (sample : Sample) (shown : Option Estimates) : Option Estimates :=
  if sample.idle || sample.activation then
    match sample.power with
    | some power =>
        let before := CPUSocket.stored shown
        let current := power - before.background
        some
          { idle := if sample.idle then CPUSocket.lowered current before.idle else before.idle
            activation := if sample.activation then CPUSocket.lowered current before.activation
              else before.activation }
    | none => shown
  else shown

namespace CPUSocket

theorem lowered_le {current : Nat} (currentFits : current ≤ u64Max) (estimate : Nat) :
    lowered current estimate ≤ u64Max := by
  unfold lowered
  split
  · exact Nat.le_trans (Nat.min_le_left _ _) currentFits
  · exact currentFits

omit [Float64 F] in
theorem shows_of_buffer {socket other : CPUSocket F}
    (same : other.activationIdleBuffer = socket.activationIdleBuffer) {shown : Option Estimates}
    (shows : socket.Shows shown) : other.Shows shown := by
  cases shown with
  | none => exact same.trans shows
  | some estimates =>
      obtain ⟨fits, timestamp, units, last⟩ := shows
      exact ⟨fits, timestamp, units, by rw [same, last]⟩

theorem shows_refreshActivationIdleRecords {socket : CPUSocket F} {shown : Option Estimates}
    (shows : socket.Shows shown) (now : Nat) (records : List CpuStateEvent) :
    (socket.refreshActivationIdleRecords now records).Shows
      (nextEstimates (sampleOf records socket.rawPower) shown) := by
  obtain ⟨idleValue, activationValue⟩ := values_of_shows shows now
  have unchanged : socket.readActivationIdleRecord now records = none →
      (socket.refreshActivationIdleRecords now records).Shows shown := by
    intro nothing
    refine shows_of_buffer ?_ shows
    simp [refreshActivationIdleRecords, nothing]
  unfold nextEstimates
  split
  · rename_i happened
    cases power : socket.rawPower with
    | none =>
        apply unchanged
        have noPower := power_of_shows shows now
        rw [power] at noPower
        unfold readActivationIdleRecord
        simp only [noPower, Option.map_none]
        split <;> rfl
    | some raw =>
        have current := power_of_shows shows now
        rw [power] at current
        have read : socket.readActivationIdleRecord now records =
            some ⟨now, [toText (if (sampleOf records (some raw)).idle then
                lowered (raw - (stored shown).background) (stored shown).idle
                else (stored shown).idle),
              toText (if (sampleOf records (some raw)).activation then
                lowered (raw - (stored shown).background) (stored shown).activation
                else (stored shown).activation)], [.microWatt, .microWatt]⟩ := by
          unfold readActivationIdleRecord
          simp only [current, Option.map_some, idleValue, activationValue]
          exact if_pos happened
        have rawFits : raw ≤ u64Max := by
          obtain ⟨pair, _, between⟩ := Option.bind_eq_some_iff.mp power
          exact powerBetween_le between
        have fits := stored_fits shows
        have currentFits : raw - (stored shown).background ≤ u64Max :=
          Nat.le_trans (Nat.sub_le _ _) rawFits
        refine ⟨⟨?_, ?_⟩, now, [.microWatt, .microWatt], ?_⟩
        · change (if _ then _ else _) ≤ u64Max
          split
          · exact lowered_le currentFits _
          · exact fits.1
        · change (if _ then _ else _) ≤ u64Max
          split
          · exact lowered_le currentFits _
          · exact fits.2
        · simp [refreshActivationIdleRecords, read, sampleOf]
  · rename_i nothing
    apply unchanged
    unfold readActivationIdleRecord
    exact if_neg nothing

/-- The distribution only sets the backgrounds of the domains. -/
theorem distribute_eq (socket : CPUSocket F) (now : Nat) :
    ∃ domains, socket.distributeBackgroundToDomains now = { socket with domains := domains } := by
  unfold distributeBackgroundToDomains
  simp only
  split
  · exact ⟨socket.domains, rfl⟩
  · exact ⟨_, rfl⟩

/-- But for the domains and the cores, a refresh estimates and then reads the counter. -/
theorem refreshCores_refresh_eq (socket : CPUSocket F) (now : Nat)
    (records : List CpuStateEvent) (reading : SocketReading) (cores : Nat → CoreRecord F) :
    ∃ domains cpuCores, (socket.refresh now records reading).refreshCores cores =
      { (socket.refreshActivationIdleRecords now records).refreshRecord reading.energy with
        domains := domains
        cpuCores := cpuCores } := by
  obtain ⟨domains, same⟩ := distribute_eq (socket.refreshActivationIdleRecords now records) now
  refine ⟨((socket.refresh now records reading).refreshCores cores).domains,
    ((socket.refresh now records reading).refreshCores cores).cpuCores, ?_⟩
  simp only [refreshCores, refresh, same, refreshRecord]
  split
  · rfl
  · rfl

omit [Float64 F] in
theorem shows_refreshRecord {socket : CPUSocket F} {shown : Option Estimates}
    (shows : socket.Shows shown) (reading : Option (Record Text)) :
    (socket.refreshRecord reading).Shows shown := by
  unfold refreshRecord
  simp only
  split
  · have last := getLast?_removeOldest sizeOfMultiValuedRecord (maxBytes socket.bufferMaxKbytes)
      socket.activationIdleBuffer
    cases shown with
    | none =>
        change removeOldest _ _ socket.activationIdleBuffer = []
        rw [show socket.activationIdleBuffer = [] from shows]
        rfl
    | some estimates =>
        obtain ⟨fits, timestamp, units, found⟩ := shows
        exact ⟨fits, timestamp, units, last.trans found⟩
  · exact shows_of_buffer rfl shows

/-- A refresh moves the estimates of a socket by its sample. -/
theorem shows_refresh {socket : CPUSocket F} {shown : Option Estimates}
    (shows : socket.Shows shown) (now : Nat) (records : List CpuStateEvent)
    (reading : SocketReading) (cores : Nat → CoreRecord F) :
    ((socket.refresh now records reading).refreshCores cores).Shows
      (nextEstimates (sampleOf records socket.rawPower) shown) := by
  have estimated := shows_refreshActivationIdleRecords shows now records
  obtain ⟨domains, cpuCores, same⟩ := socket.refreshCores_refresh_eq now records reading cores
  rw [same]
  exact shows_of_buffer rfl (shows_refreshRecord estimated reading.energy)

end CPUSocket

/-! ## Minima of the power before the subtraction -/

/-- The two kinds of events. -/
def Sample.has (sample : Sample) : CpuEventType → Bool
  | .idleEvent => sample.idle
  | .activationEvent => sample.activation

/-- The power of a sample that has events of the kind. -/
def Sample.powerFor (sample : Sample) (kind : CpuEventType) : Option Nat :=
  if sample.has kind then sample.power else none

/-- The minimum over the samples of the kind for which a power was available. -/
def lowest (kind : CpuEventType) (log : List Sample) : Option Nat :=
  (log.filterMap fun sample => sample.powerFor kind).min?

/-- The estimate of the kind. -/
def Estimates.of (estimates : Estimates) : CpuEventType → Nat
  | .idleEvent => estimates.idle
  | .activationEvent => estimates.activation

/-- The getter of the kind. -/
def CPUSocket.getPowerMicrowatts (kind : CpuEventType) (now : Nat) (socket : CPUSocket F) :
    Option (Record Text) :=
  match kind with
  | .idleEvent => socket.getIdlePowerMicrowatts now
  | .activationEvent => socket.getActivationPowerMicrowatts now

/-- What was read is the minimum, or nothing or zero when nothing was measured. -/
def ReadsAs (reading : Option (Record Text)) : Option Nat → Prop
  | some power => reading.map Record.value = some (toText power)
  | none => reading = none ∨ reading.map Record.value = some (toText 0)

/-- The topology and what the estimator of one socket has been given so far. -/
structure Observed (F Trace : Type) where
  topology : Topology F Trace
  log : List Sample

namespace Observed

/-- The sample that a refresh gives the socket at `index`. -/
def sample (index : Nat) (observed : Observed F Trace) (input : RefreshInput F Trace) : Sample :=
  sampleOf (observed.topology.batchOf input.drained index)
    ((observed.topology.sockets[index]?).bind CPUSocket.rawPower)

def step (index : Nat) (observed : Observed F Trace) (input : RefreshInput F Trace) :
    Observed F Trace where
  topology := observed.topology.refresh input
  log := observed.log ++ [observed.sample index input]

/-- Both getters of the socket return the minimum over the batches of their kind. -/
def Minimal (index : Nat) (observed : Observed F Trace) : Prop :=
  ∀ socket ∈ observed.topology.sockets[index]?, ∀ kind now,
    ReadsAs (socket.getPowerMicrowatts kind now) (lowest kind observed.log)

/-- The background that the minima so far amount to. -/
def lowestBackground (log : List Sample) : Nat :=
  max ((lowest .idleEvent log).getD 0) ((lowest .activationEvent log).getD 0)

/-- With background `background` subtracted, a power of `power` still gives the minimum. -/
def Recovers (background power : Nat) : Option Nat → Prop
  | none => background = 0 ∨ power = 0
  | some 0 => power ≤ background
  | some (estimate + 1) => power = 0 ∨ estimate + 1 + background ≤ power

/-- For each kind of event in the batch, the subtraction of the background does not change
what the minimum becomes. -/
def Undisturbed (index : Nat) (observed : Observed F Trace) (input : RefreshInput F Trace) :
    Prop :=
  (observed.topology.sockets[index]?).isSome → ∀ kind,
    ∀ power ∈ (observed.sample index input).powerFor kind,
      Recovers (lowestBackground observed.log) power (lowest kind observed.log)

instance (background power : Nat) (least : Option Nat) :
    Decidable (Recovers background power least) :=
  match least with
  | none => inferInstanceAs (Decidable (_ ∨ _))
  | some 0 => inferInstanceAs (Decidable (_ ≤ _))
  | some (_ + 1) => inferInstanceAs (Decidable (_ ∨ _))

instance (index : Nat) (observed : Observed F Trace) (input : RefreshInput F Trace) :
    Decidable (Undisturbed index observed input) :=
  inferInstanceAs (Decidable (_ → ∀ kind,
    ∀ power ∈ (observed.sample index input).powerFor kind, _))

/-- The buffer of the socket shows some estimates. -/
def Shown (index : Nat) (observed : Observed F Trace) : Prop :=
  ∀ socket ∈ observed.topology.sockets[index]?, ∃ shown, socket.Shows shown

end Observed

/-! ### One sample -/

/-- The minimum of one more power. -/
def minWith (power : Nat) : Option Nat → Nat
  | none => power
  | some least => min least power

theorem lowest_concat (kind : CpuEventType) (log : List Sample) (sample : Sample) :
    lowest kind (log ++ [sample]) =
      match sample.powerFor kind with
      | none => lowest kind log
      | some power => some (minWith power (lowest kind log)) := by
  unfold lowest
  rw [List.filterMap_append]
  cases measured : sample.powerFor kind with
  | none => simp [measured]
  | some power =>
      have single : [sample].filterMap (fun sample => sample.powerFor kind) = [power] := by
        simp [measured]
      rw [single]
      cases log.filterMap fun sample => sample.powerFor kind with
      | nil => rfl
      | cons first rest =>
          simp only [List.cons_append, List.min?_cons', List.foldl_append, List.foldl_cons,
            List.foldl_nil, minWith]

omit [Float64 F] in
/-- A socket that shows estimates reads as the minimum just when the estimate is the minimum,
with zero for none. -/
theorem readsAs_iff {socket : CPUSocket F} {shown : Option Estimates}
    (shows : socket.Shows shown) (kind : CpuEventType) (now : Nat) (least : Option Nat) :
    ReadsAs (socket.getPowerMicrowatts kind now) least ↔
      (shown = none → least = none) ∧ (CPUSocket.stored shown).of kind = least.getD 0 := by
  cases shown with
  | none =>
      obtain ⟨idle, activation⟩ := CPUSocket.getIdle_of_shows_none shows now
      have nothing : socket.getPowerMicrowatts kind now = none := by
        cases kind with
        | idleEvent => exact idle
        | activationEvent => exact activation
      rw [nothing]
      cases least with
      | none => cases kind <;> simp [ReadsAs, CPUSocket.stored, Estimates.of]
      | some power => simp [ReadsAs]
  | some estimates =>
      obtain ⟨idle, activation⟩ := CPUSocket.getIdle_of_shows_some shows now
      have value : (socket.getPowerMicrowatts kind now).map Record.value =
          some (toText (estimates.of kind)) := by
        cases kind with
        | idleEvent => exact congrArg (Option.map Record.value) idle
        | activationEvent => exact congrArg (Option.map Record.value) activation
      have present : socket.getPowerMicrowatts kind now ≠ none := by
        intro absent
        rw [absent] at value
        cases value
      have texts : ∀ n, some (toText (estimates.of kind)) = some (toText n) ↔
          estimates.of kind = n := by
        intro n
        exact ⟨fun same => toText_injective (Option.some.inj same), fun same => by rw [same]⟩
      cases least with
      | none => simp [ReadsAs, value, present, texts, CPUSocket.stored]
      | some power => simp [ReadsAs, value, texts, CPUSocket.stored]

/-- The heart of the matter: the lowered estimate is the new minimum just when the
background does not disturb it. -/
theorem lowered_eq_iff {least : Option Nat} {background : Nat} (power : Nat)
    (covers : least.getD 0 ≤ background) :
    CPUSocket.lowered (power - background) (least.getD 0) = minWith power least ↔
      Observed.Recovers background power least := by
  cases least with
  | none =>
      change (if (0 : Nat) ≠ 0 then _ else power - background) = power ↔ _
      rw [if_neg (by simp), Observed.Recovers]
      omega
  | some estimate =>
      change estimate ≤ background at covers
      cases estimate with
      | zero =>
          change (if (0 : Nat) ≠ 0 then _ else power - background) = min 0 power ↔ _
          rw [if_neg (by simp), Observed.Recovers]
          omega
      | succ estimate =>
          change (if estimate + 1 ≠ 0 then min (power - background) (estimate + 1) else _) =
            min (estimate + 1) power ↔ _
          rw [if_pos (by omega), Observed.Recovers]
          omega

theorem nextEstimates_of (sample : Sample) (shown : Option Estimates) (kind : CpuEventType) :
    (CPUSocket.stored (nextEstimates sample shown)).of kind =
      match sample.powerFor kind with
      | some power => CPUSocket.lowered (power - (CPUSocket.stored shown).background)
          ((CPUSocket.stored shown).of kind)
      | none => (CPUSocket.stored shown).of kind := by
  obtain ⟨idle, activation, power⟩ := sample
  cases power with
  | none =>
      have unchanged : nextEstimates ⟨idle, activation, none⟩ shown = shown := by
        unfold nextEstimates
        split <;> rfl
      rw [unchanged]
      cases kind <;> simp [Sample.powerFor]
  | some power =>
      cases idle <;> cases activation <;> cases kind <;> rfl

theorem nextEstimates_eq_none {sample : Sample} {shown : Option Estimates}
    (nothing : nextEstimates sample shown = none) :
    shown = none ∧ ∀ kind, sample.powerFor kind = none := by
  obtain ⟨idle, activation, power⟩ := sample
  cases power with
  | none =>
      refine ⟨?_, fun kind => by simp [Sample.powerFor]⟩
      unfold nextEstimates at nothing
      split at nothing
      · exact nothing
      · exact nothing
  | some power =>
      cases idle with
      | true => cases nothing
      | false =>
          cases activation with
          | true => cases nothing
          | false => exact ⟨nothing, fun kind => by cases kind <;> rfl⟩

namespace Observed

theorem shown_step {index : Nat} {observed : Observed F Trace} (input : RefreshInput F Trace)
    (shown : Shown index observed) : Shown index (observed.step index input) := by
  intro socket atIndex
  change (observed.topology.refresh input).sockets[index]? = some socket at atIndex
  rw [Topology.getElem?_refresh] at atIndex
  obtain ⟨before, isBefore, rfl⟩ := Option.map_eq_some_iff.mp atIndex
  obtain ⟨estimates, shows⟩ := shown before isBefore
  exact ⟨_, CPUSocket.shows_refresh shows _ _ _ _⟩

omit [Float64 F] in
/-- The reading after a sample is the next minimum just when the subtraction of the background
does not change it, where the stored estimates are the minima so far, with zero for none. -/
theorem readsAs_next_iff {next : CPUSocket F} {sample : Sample} {estimates : Option Estimates}
    (after : next.Shows (nextEstimates sample estimates)) {log : List Sample}
    (before : ∀ kind, (estimates = none → lowest kind log = none) ∧
      (CPUSocket.stored estimates).of kind = (lowest kind log).getD 0)
    (kind : CpuEventType) (now : Nat) :
    ReadsAs (next.getPowerMicrowatts kind now) (lowest kind (log ++ [sample])) ↔
      ∀ power ∈ sample.powerFor kind,
        Recovers (lowestBackground log) power (lowest kind log) := by
  have background : (CPUSocket.stored estimates).background = lowestBackground log := by
    unfold Estimates.background lowestBackground
    rw [← (before .idleEvent).2, ← (before .activationEvent).2]
    rfl
  rw [readsAs_iff after, nextEstimates_of, lowest_concat, (before kind).2, background]
  have empties : nextEstimates sample estimates = none →
      sample.powerFor kind = none ∧ lowest kind log = none := by
    intro nothing
    obtain ⟨none, noPower⟩ := nextEstimates_eq_none nothing
    exact ⟨noPower kind, (before kind).1 none⟩
  cases measured : sample.powerFor kind with
  | none =>
      constructor
      · intro _ power absent
        cases absent
      · intro _
        exact ⟨fun nothing => (empties nothing).2, rfl⟩
  | some power =>
      have covers : (lowest kind log).getD 0 ≤ lowestBackground log := by
        cases kind with
        | idleEvent => exact Nat.le_max_left _ _
        | activationEvent => exact Nat.le_max_right _ _
      constructor
      · rintro ⟨_, same⟩ other isPower
        cases isPower
        exact (lowered_eq_iff _ covers).mp same
      · intro recovers
        refine ⟨fun nothing => ?_, (lowered_eq_iff _ covers).mpr (recovers power rfl)⟩
        have none := (empties nothing).1
        rw [measured] at none
        cases none

/-- One refresh keeps the estimates minimal just when the batch is undisturbed. -/
theorem minimal_step_iff (index : Nat) (observed : Observed F Trace)
    (input : RefreshInput F Trace) (shown : Shown index observed)
    (minimal : Minimal index observed) :
    Minimal index (observed.step index input) ↔ Undisturbed index observed input := by
  unfold Minimal Undisturbed
  change (∀ socket ∈ (observed.topology.refresh input).sockets[index]?, ∀ kind now,
    ReadsAs (socket.getPowerMicrowatts kind now)
      (lowest kind (observed.log ++ [observed.sample index input]))) ↔ _
  rw [Topology.getElem?_refresh]
  cases atIndex : observed.topology.sockets[index]? with
  | none => simp
  | some socket =>
      obtain ⟨estimates, shows⟩ := shown socket atIndex
      have before : ∀ kind, (estimates = none → lowest kind observed.log = none) ∧
          (CPUSocket.stored estimates).of kind = (lowest kind observed.log).getD 0 := fun kind =>
        (readsAs_iff shows kind 0 _).mp (minimal socket atIndex kind 0)
      have after := CPUSocket.shows_refresh shows input.now
        (observed.topology.batchOf input.drained index) (input.socketReading index)
        (input.coreReading index)
      have sampled : sampleOf (observed.topology.batchOf input.drained index) socket.rawPower =
          observed.sample index input := by
        rw [sample, atIndex]
        rfl
      rw [sampled] at after
      have one := readsAs_next_iff after before
      constructor
      · intro reads _ kind
        exact (one kind 0).mp (reads _ rfl kind 0)
      · intro undisturbed other isOther kind now
        cases isOther
        exact (one kind now).mpr (undisturbed rfl kind)

/-- Over a whole run the estimates are the minima after every refresh just when every batch
is undisturbed by the background subtracted from its power. -/
theorem always_minimal_iff_undisturbed (index : Nat) (topology : Topology F Trace)
    (fresh : ∀ socket ∈ topology.sockets[index]?, socket.activationIdleBuffer = [])
    (inputs : List (RefreshInput F Trace)) :
    Always (step index) (Minimal index) ⟨topology, []⟩ inputs ↔
      Meets (step index) (Undisturbed index) ⟨topology, []⟩ inputs := by
  refine always_iff_meets_of_invariant (Shown index) (fun _ input shown => shown_step input shown)
    (minimal_step_iff index) ?_ ?_
  · intro socket atIndex
    exact ⟨none, fresh socket atIndex⟩
  · intro socket atIndex kind now
    have shows : socket.Shows none := fresh socket atIndex
    rw [readsAs_iff shows]
    exact ⟨fun _ => rfl, by cases kind <;> rfl⟩

/-- A topology with one socket that has measured nothing yet. -/
def oneSocket : Topology ExactFloat Unit where
  sockets :=
    [{ id := 0
       domains := []
       recordBuffer := []
       bufferMaxKbytes := 8
       activationIdleBuffer := []
       cpuCores := []
       raplMaxUj := u64Max }]
  procTracker := ⟨[], 1, 5⟩
  recordBuffer := []
  bufferMaxKbytes := 8
  activationIdleBuffer := fun _ => []
  cpuTimeBuffer := []

/-- The refresh at second `second`, with the energy counter at `energy` and the given
events of socket 0. -/
def refreshAt (second energy : Nat) (kinds : List CpuEventType) :
    RefreshInput ExactFloat Unit where
  now := second * 10 ^ 9
  drained := kinds.map fun kind => ⟨0, kind⟩
  socketReading := fun _ =>
    { energy := some ⟨second * 10 ^ 9, toText energy ++ ['\n'], .microJoule⟩
      domainEnergy := fun _ => none }
  coreReading := fun _ _ => ⟨0, 0, 0, 0, 0, 0, 0, 0, .num 0, .num 0, 0⟩
  processes := []
  cpuTime := none
  energy := none

theorem always_minimal_iff_undisturbed_two_batches :
    Always (step 0) (Minimal 0) ⟨oneSocket, []⟩
      [refreshAt 1 0 [], refreshAt 2 10 [], refreshAt 3 35 [.idleEvent],
        refreshAt 4 60 [.idleEvent]] :=
  (always_minimal_iff_undisturbed 0 oneSocket (fun socket found => by cases found; rfl) _).mpr
    (by decide +kernel)

/-- Ten microwatts throughout and two idle batches: the second one sees no power above the
background and sets the idle estimate to zero. -/
theorem not_minimal_of_steady_power :
    ¬ Always (step 0) (Minimal 0) ⟨oneSocket, []⟩
      [refreshAt 1 0 [], refreshAt 2 10 [], refreshAt 3 20 [.idleEvent],
        refreshAt 4 30 [.idleEvent]] := by
  intro always
  have minimal := always _ List.prefix_rfl
  have least : lowest .idleEvent (run (step 0) ⟨oneSocket, []⟩
      [refreshAt 1 0 [], refreshAt 2 10 [], refreshAt 3 20 [.idleEvent],
        refreshAt 4 30 [.idleEvent]]).log = some 10 := by
    decide +kernel
  have idle : ((run (step 0) ⟨oneSocket, []⟩
      [refreshAt 1 0 [], refreshAt 2 10 [], refreshAt 3 20 [.idleEvent],
        refreshAt 4 30 [.idleEvent]]).topology.sockets[0]?).map
          (fun socket => socket.getIdlePowerMicrowatts 0) =
        some (some ⟨0, ['0'], .microWatt⟩) := by
    decide +kernel
  obtain ⟨socket, atIndex, reading⟩ := Option.map_eq_some_iff.mp idle
  have reads := minimal socket atIndex .idleEvent 0
  rw [least] at reads
  change (socket.getIdlePowerMicrowatts 0).map Record.value = some (toText 10) at reads
  rw [reading] at reads
  exact absurd reads (by decide)

end Observed

end ScaphandreFormal.Sensors
