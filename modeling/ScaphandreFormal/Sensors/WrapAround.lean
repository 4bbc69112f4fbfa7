import ScaphandreFormal.Sensors.Attribution

/-!
# Counters that wrap

A counter whose largest value is `m` takes `m + 1` values, so that a reading after
a wrap is found by adding `m + 1`.  The sockets, the domains and the CPU times all
add the largest value instead, and what they recover over a wrap is one too small.
For CPU times a growth of one over the wrap even looks like none at all.
-/

namespace ScaphandreFormal.Sensors

open Foundation

variable {F Trace : Type}

/-! ## Energy counters -/

/-- Two readings of a counter: its largest value, the first reading and the true increase. -/
structure CounterStep where
  maximum : Nat
  previous : Nat
  increase : Nat
  fits : maximum ≤ u64Max
  previous_le : previous ≤ maximum
  increase_le : increase ≤ maximum

namespace CounterStep

/-- The second reading. -/
def last (step : CounterStep) : Nat := (step.previous + step.increase) % (step.maximum + 1)

/-- The counter stays below its largest value. -/
def Unwrapped (step : CounterStep) : Prop := step.previous + step.increase ≤ step.maximum

theorem last_of_unwrapped {step : CounterStep} (unwrapped : step.Unwrapped) :
    step.last = step.previous + step.increase :=
  Nat.mod_eq_of_lt (Nat.lt_succ_of_le unwrapped)

theorem last_of_wrapped {step : CounterStep} (wrapped : ¬ step.Unwrapped) :
    step.last + (step.maximum + 1) = step.previous + step.increase := by
  have beyond : step.maximum + 1 ≤ step.previous + step.increase := Nat.lt_of_not_le wrapped
  have previous := step.previous_le
  have increase := step.increase_le
  have below : step.previous + step.increase - (step.maximum + 1) < step.maximum + 1 := by omega
  rw [last, Nat.mod_eq_sub_mod beyond, Nat.mod_eq_of_lt below]
  omega

/-- Over a wrap one microjoule is lost. -/
theorem counterDiff_of_wrapped {step : CounterStep} (wrapped : ¬ step.Unwrapped) :
    counterDiff step.maximum step.previous step.last + 1 = step.increase := by
  have found := last_of_wrapped wrapped
  have fits := step.fits
  have previous := step.previous_le
  have increase := step.increase_le
  unfold counterDiff
  rw [if_neg (by omega), saturatingAdd, Nat.min_eq_left (by omega)]
  omega

theorem counterDiff_iff_unwrapped (step : CounterStep) :
    counterDiff step.maximum step.previous step.last = step.increase ↔ step.Unwrapped := by
  constructor
  · intro exact
    by_contra wrapped
    have lost := counterDiff_of_wrapped wrapped
    omega
  · intro unwrapped
    rw [last_of_unwrapped unwrapped, counterDiff, if_pos (Nat.le_add_right _ _)]
    omega

end CounterStep

/-- The local variable `microjoules` of `get_records_diff_power_microwatts`. -/
def diffMicrojoules (raplMaxUj : Nat) (buffer : List (Record Text)) : Option Nat :=
  match lastTwo buffer with
  | some (previous, last) =>
      match parseU64 (trim last.value), parseU64 (trim previous.value) with
      | some lastMicrojoules, some previousMicrojoules =>
          some (counterDiff raplMaxUj previousMicrojoules lastMicrojoules)
      | _, _ => none
  | none => none

/-- The power that some microjoules make between two times, less a background, at the later
time. -/
def powerRecord (F : Type) [Float64 F] (earlier later background microjoules : Nat) :
    Record Text :=
  let timeDiff : F := Float64.sub (Float64.asSecsF64 later) (Float64.asSecsF64 earlier)
  let microwatts := Float64.asU64 (Float64.div (Float64.ofU64 microjoules) timeDiff)
  ⟨later, toText (microwatts - background), .microWatt⟩

/-- The power is computed from these microjoules. -/
theorem diffPower_eq [Float64 F] (raplMaxUj background : Nat) (buffer : List (Record Text)) :
    diffPower F raplMaxUj background buffer =
      (lastTwo buffer).bind fun pair =>
        (diffMicrojoules raplMaxUj buffer).map
          (powerRecord F pair.1.timestamp pair.2.timestamp background) := by
  unfold diffPower diffMicrojoules powerBetween
  cases found : lastTwo buffer with
  | none => rfl
  | some pair =>
      simp only [Option.bind_some]
      cases parseU64 (trim pair.2.value) with
      | none => rfl
      | some last =>
          cases parseU64 (trim pair.1.value) with
          | none => rfl
          | some previous => rfl

def CPUSocket.diffMicrojoules (socket : CPUSocket F) : Option Nat :=
  Sensors.diffMicrojoules socket.raplMaxUj socket.recordBuffer

def Domain.diffMicrojoules (domain : Domain F) : Option Nat :=
  Sensors.diffMicrojoules domain.raplMaxUj domain.recordBuffer

/-- What is read from the file of a counter, which may end with a line feed. -/
def counterText (newline : Bool) (n : Nat) : Text := toText n ++ if newline then ['\n'] else []

theorem parseU64_counterText (newline : Bool) {n : Nat} (fits : n ≤ u64Max) :
    parseU64 (trim (counterText newline n)) = some n := by
  cases newline with
  | false => simp [counterText, fits]
  | true => simp [counterText, fits]

/-- The field `rapl_max_uj`, from the file `max_energy_range_uj` where there is one. -/
def raplMaxOf (maxEnergyRangeUj : Option Text) : Nat :=
  (maxEnergyRangeUj.bind fun v => parseU64 (trim v)).getD u64Max

/-- Every largest value can be read from the file. -/
theorem raplMaxOf_counterText (newline : Bool) {n : Nat} (fits : n ≤ u64Max) :
    raplMaxOf (some (counterText newline n)) = n := by
  rw [raplMaxOf, Option.bind_some, parseU64_counterText newline fits, Option.getD_some]

namespace CounterStep

/-- The two readings as records, after older ones. -/
def buffer (step : CounterStep) (older : List (Record Text)) (earlier later : Nat)
    (newline : Bool) : List (Record Text) :=
  older ++ [⟨earlier, counterText newline step.previous, .microJoule⟩,
    ⟨later, counterText newline step.last, .microJoule⟩]

theorem lastTwo_buffer (step : CounterStep) (older : List (Record Text)) (earlier later : Nat)
    (newline : Bool) :
    lastTwo (step.buffer older earlier later newline) =
      some (⟨earlier, counterText newline step.previous, .microJoule⟩,
        ⟨later, counterText newline step.last, .microJoule⟩) :=
  lastTwo_eq_some_iff.mpr ⟨older, rfl⟩

/-- The largest value, as it is read from its file. -/
def raplMaxUj (step : CounterStep) (newline : Bool) : Nat :=
  raplMaxOf (some (counterText newline step.maximum))

theorem diffMicrojoules_buffer (step : CounterStep) (older : List (Record Text))
    (earlier later : Nat) (newline : Bool) :
    diffMicrojoules (step.raplMaxUj newline) (step.buffer older earlier later newline) =
      some (counterDiff step.maximum step.previous step.last) := by
  have previousFits : step.previous ≤ u64Max := step.previous_le.trans step.fits
  have lastFits : step.last ≤ u64Max :=
    (Nat.lt_succ_iff.mp (Nat.mod_lt _ (Nat.succ_pos _))).trans step.fits
  rw [diffMicrojoules, lastTwo_buffer]
  simp only [raplMaxUj, raplMaxOf_counterText newline step.fits,
    parseU64_counterText newline previousFits, parseU64_counterText newline lastFits]

/-- A socket whose counter made the step. -/
def inSocket (step : CounterStep) (older : List (Record Text)) (earlier later : Nat)
    (newline : Bool) (socket : CPUSocket F) : CPUSocket F :=
  { socket with
    raplMaxUj := step.raplMaxUj newline
    recordBuffer := step.buffer older earlier later newline }

/-- A domain whose counter made the step. -/
def inDomain (step : CounterStep) (older : List (Record Text)) (earlier later : Nat)
    (newline : Bool) (domain : Domain F) : Domain F :=
  { domain with
    raplMaxUj := step.raplMaxUj newline
    recordBuffer := step.buffer older earlier later newline }

/-- What the code returns as the power of a counter that made the step. -/
theorem diffPower_buffer [Float64 F] (step : CounterStep) (older : List (Record Text))
    (earlier later : Nat) (newline : Bool) (background : Nat) :
    diffPower F (step.raplMaxUj newline) background
        (step.buffer older earlier later newline) =
      (diffMicrojoules (step.raplMaxUj newline) (step.buffer older earlier later newline)).map
        (powerRecord F earlier later background) := by
  rw [diffPower_eq, lastTwo_buffer, Option.bind_some]

end CounterStep

/-! ## CPU times -/

/-- The number in a text of `CPU_TIME`. -/
def cpuTimeOf (text : Text) : Nat := (parseU64 text).getD 0

/-- The difference of two `u64` in their own arithmetic. -/
def modularDelta (last previous : Text) : Nat :=
  (cpuTimeOf last + 2 ^ 64 - cpuTimeOf previous) % 2 ^ 64

theorem cpuTimeOf_le (text : Text) : cpuTimeOf text ≤ u64Max := by
  unfold cpuTimeOf
  cases parsed : parseU64 text with
  | none => exact Nat.zero_le _
  | some value => exact parseU64_le parsed

theorem cpuTimeDelta_of_grown {last previous : Text}
    (grown : cpuTimeOf previous ≤ cpuTimeOf last) :
    Topology.cpuTimeDelta last previous = modularDelta last previous := by
  have fits : cpuTimeOf last < 2 ^ 64 := Nat.lt_succ_of_le (cpuTimeOf_le last)
  change (if cpuTimeOf previous ≤ cpuTimeOf last then _ else _) = _
  rw [if_pos grown, modularDelta]
  change cpuTimeOf last - cpuTimeOf previous = _
  omega

theorem cpuTimeDelta_of_wrapped {last previous : Text}
    (wrapped : ¬ cpuTimeOf previous ≤ cpuTimeOf last) :
    Topology.cpuTimeDelta last previous + 1 = modularDelta last previous := by
  have fits : cpuTimeOf previous ≤ 2 ^ 64 - 1 := cpuTimeOf_le previous
  change (if cpuTimeOf previous ≤ cpuTimeOf last then _ else _) + 1 = _
  rw [if_neg wrapped, modularDelta]
  change 2 ^ 64 - 1 - cpuTimeOf previous + cpuTimeOf last + 1 = _
  omega

namespace Topology

/-- The values of the last two records, the last one first. -/
def lastCpuTimes (topology : Topology F Trace) : Option (List (Text × Text)) :=
  (lastTwo topology.cpuTimeBuffer).map fun pair => pair.2.values.zip pair.1.values

/-- There is no difference just when there are fewer than two records or none grew, and the
entries of a difference are the modular ones. -/
def ModularCpuTimes (topology : Topology F Trace) : Prop :=
  (topology.getCpuTimeDiff = none ↔
    ∀ times ∈ topology.lastCpuTimes, ∀ pair ∈ times, modularDelta pair.1 pair.2 = 0) ∧
  ∀ diff ∈ topology.getCpuTimeDiff, ∀ times ∈ topology.lastCpuTimes,
    diff.values = times.map fun pair => toText (modularDelta pair.1 pair.2)

/-- No value of the last record is below that of the record before. -/
def CpuTimesGrow (topology : Topology F Trace) : Prop :=
  ∀ times ∈ topology.lastCpuTimes, ∀ pair ∈ times, cpuTimeOf pair.2 ≤ cpuTimeOf pair.1

/-- The differences as the source computes them. -/
theorem getCpuTimeDiff_eq {topology : Topology F Trace} {times : List (Text × Text)}
    (found : topology.lastCpuTimes = some times) :
    (topology.getCpuTimeDiff = none ↔ ∀ pair ∈ times, cpuTimeDelta pair.1 pair.2 = 0) ∧
      ∀ diff ∈ topology.getCpuTimeDiff,
        diff.values = times.map fun pair => toText (cpuTimeDelta pair.1 pair.2) := by
  unfold lastCpuTimes at found
  unfold getCpuTimeDiff
  cases records : lastTwo topology.cpuTimeBuffer with
  | none => rw [records] at found; cases found
  | some pair =>
      rw [records] at found
      cases found
      have shown : List.zipWith (fun l p => toText (cpuTimeDelta l p)) pair.2.values
          pair.1.values = (pair.2.values.zip pair.1.values).map
            fun pair => toText (cpuTimeDelta pair.1 pair.2) := by
        rw [List.map_zip_eq_zipWith]
        rfl
      have zero : ((pair.2.values.zip pair.1.values).map
            fun pair => toText (cpuTimeDelta pair.1 pair.2)).all (· = ['0']) = true ↔
          ∀ both ∈ pair.2.values.zip pair.1.values, cpuTimeDelta both.1 both.2 = 0 := by
        simp only [List.all_eq_true, decide_eq_true_eq, List.forall_mem_map]
        refine forall₂_congr fun both _ => ⟨fun same => toText_injective same, fun same => ?_⟩
        rw [same]
        rfl
      simp only [shown, ← zero]
      split
      · rename_i all
        exact ⟨iff_of_true rfl all, nofun⟩
      · rename_i notAll
        refine ⟨iff_of_false nofun notAll, ?_⟩
        rintro diff ⟨⟩
        rfl

theorem getCpuTimeDiff_of_few {topology : Topology F Trace}
    (few : topology.lastCpuTimes = none) : topology.getCpuTimeDiff = none := by
  rw [getCpuTimeDiff, Option.map_eq_none_iff.mp few]

/-- The differences are modular just when no value wrapped. -/
theorem modularCpuTimes_iff_grow (topology : Topology F Trace) :
    topology.ModularCpuTimes ↔ topology.CpuTimesGrow := by
  cases found : topology.lastCpuTimes with
  | none => simp [ModularCpuTimes, CpuTimesGrow, found, getCpuTimeDiff_of_few found]
  | some times =>
      obtain ⟨absent, values⟩ := getCpuTimeDiff_eq found
      simp only [ModularCpuTimes, CpuTimesGrow, found, Option.mem_some_iff, forall_eq']
      constructor
      · rintro ⟨none, entries⟩ pair member
        by_contra wrapped
        have lost := cpuTimeDelta_of_wrapped wrapped
        cases diff : topology.getCpuTimeDiff with
        | none =>
            have modular := none.mp diff pair member
            omega
        | some record =>
            have same := (values record diff).symm.trans (entries record diff)
            have here := toText_injective (List.map_inj_left.mp same pair member)
            omega
      · intro grown
        have same : ∀ pair ∈ times, cpuTimeDelta pair.1 pair.2 = modularDelta pair.1 pair.2 :=
          fun pair member => cpuTimeDelta_of_grown (grown pair member)
        constructor
        · rw [absent]
          exact forall₂_congr fun pair member => by rw [same pair member]
        · intro diff isDiff
          rw [values diff isDiff]
          exact List.map_congr_left fun pair member => by rw [same pair member]

end Topology

/-! ## All three -/

/-- The microjoules from which a socket and a domain compute their power, and the differences
of the CPU times, are the true increases just when nothing wraps. -/
theorem differences_modular_iff_unwrapped [Float64 F] (step : CounterStep)
    (socket : CPUSocket F) (domain : Domain F) (older : List (Record Text))
    (earlier later : Nat) (newline : Bool) (topology : Topology F Trace) :
    ((∀ now, (step.inSocket older earlier later newline socket).getRecordsDiffPowerMicrowatts
          now = (step.inSocket older earlier later newline socket).diffMicrojoules.map
            (powerRecord F earlier later (valueOrZero (socket.getBackgroundPowerMicrowatts now)))) ∧
      ((step.inSocket older earlier later newline socket).diffMicrojoules = some step.increase ↔
        step.Unwrapped)) ∧
    ((step.inDomain older earlier later newline domain).getRecordsDiffPowerMicrowatts =
        (step.inDomain older earlier later newline domain).diffMicrojoules.map
          (powerRecord F earlier later (Float64.asU64 domain.backgroundPowerUw)) ∧
      ((step.inDomain older earlier later newline domain).diffMicrojoules = some step.increase ↔
        step.Unwrapped)) ∧
    (topology.ModularCpuTimes ↔ topology.CpuTimesGrow) := by
  have energy : diffMicrojoules (step.raplMaxUj newline) (step.buffer older earlier later newline) =
      some step.increase ↔ step.Unwrapped := by
    rw [step.diffMicrojoules_buffer, Option.some.injEq, step.counterDiff_iff_unwrapped]
  exact ⟨⟨fun now => step.diffPower_buffer older earlier later newline _, energy⟩,
    ⟨step.diffPower_buffer older earlier later newline _, energy⟩,
    topology.modularCpuTimes_iff_grow⟩

/-- A counter that goes up to 100 and advances by 20 from 90. -/
def wrappingStep : CounterStep := ⟨100, 90, 20, by decide, by decide, by decide⟩

/-- A machine with one CPU whose time wraps to zero. -/
def wrappedTopology : Topology ExactFloat Unit where
  sockets := []
  procTracker := ⟨[], 1, 5⟩
  recordBuffer := []
  bufferMaxKbytes := 1
  activationIdleBuffer := fun _ => []
  cpuTimeBuffer := [⟨1, [toText u64Max], [.numeric]⟩, ⟨2, [toText 0], [.numeric]⟩]

/-- The counter that reads 9 has gained 20 microjoules, and the code finds 19; the CPU time has
gained a nanosecond, and the code finds nothing. -/
theorem not_differences_modular_of_wrap :
    ({ id := 0, domains := [], recordBuffer := wrappingStep.buffer [] 1 2 true
       bufferMaxKbytes := 1, activationIdleBuffer := [], cpuCores := []
       raplMaxUj := wrappingStep.raplMaxUj true } : CPUSocket ExactFloat).diffMicrojoules ≠
        some wrappingStep.increase ∧
    ({ id := 0, name := [], recordBuffer := wrappingStep.buffer [] 1 2 true
       bufferMaxKbytes := 1, raplMaxUj := wrappingStep.raplMaxUj true
       backgroundPowerUw := .num 0, relatedResource := none } :
        Domain ExactFloat).diffMicrojoules ≠ some wrappingStep.increase ∧
    wrappedTopology.getCpuTimeDiff = none ∧ ¬ wrappedTopology.ModularCpuTimes := by
  refine ⟨by decide +kernel, by decide +kernel, by decide +kernel, ?_⟩
  rw [Topology.modularCpuTimes_iff_grow]
  intro grow
  have wrapped := grow _ rfl _ List.mem_cons_self
  revert wrapped
  decide +kernel

end ScaphandreFormal.Sensors
