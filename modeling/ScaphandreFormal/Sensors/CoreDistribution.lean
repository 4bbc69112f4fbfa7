import ScaphandreFormal.Sensors.CorePowers
import Mathlib.Tactic.Positivity

/-!
# The distribution of the power of a socket over its cores

The coefficient of a core is `(1 + ipc) * aperf * (aperf / mperf)` when its
time stamp counter moved.  `MPERF` stands still while a core is idle and the time
stamp counter does not, so that the guard does not keep the divisor from zero.
The instruction and cycle counts are estimates that may go down, and with them
the coefficient may fall below zero.
-/

namespace ScaphandreFormal.Sensors

open Foundation

/-! ## The coefficient of one core -/

/-- The summand of `get_core_coefs` for one core. -/
def CPUCore.coefficient {F : Type} [Float64 F] (core : CPUCore F) : F :=
  match core.getCoreMetricsDelta with
  | some metrics =>
      if 0 < metrics.tsc then
        let aperf : F := Float64.ofU64 metrics.aperf
        Float64.mul (Float64.mul (Float64.add (Float64.ofU64 1) metrics.ipc) aperf)
          (Float64.div aperf (Float64.ofU64 metrics.mperf))
      else Float64.ofU64 0
  | none => Float64.ofU64 0

theorem CPUSocket.getCoreCoefs_eq {F : Type} [Float64 F] (socket : CPUSocket F) :
    socket.getCoreCoefs = socket.getCores.map CPUCore.coefficient := rfl

/-- The estimates of the core are numbers. -/
def Estimated (core : CPUCore ExactFloat) : Prop :=
  ∀ record ∈ core.recordBuffer,
    record.instructions = .num record.instructions.number ∧
      record.cycles = .num record.cycles.number

/-- Between the last two records: when the time stamp counter moved then so did `MPERF`, and
`APERF` stood still, or the cycles did not grow, or instructions and cycles together did not
go down. -/
def WellCounted (core : CPUCore ExactFloat) : Prop :=
  ∀ previous last, lastTwo core.recordBuffer = some (previous, last) → previous.tsc < last.tsc →
    previous.mperf < last.mperf ∧
      (last.aperf ≤ previous.aperf ∨ last.cycles.number ≤ previous.cycles.number ∨
        previous.instructions.number + previous.cycles.number ≤
          last.instructions.number + last.cycles.number)

/-- The instructions per cycle between two records. -/
def ipcBetween (previous last : CoreRecord ExactFloat) : ℚ :=
  if previous.cycles.number < last.cycles.number then
    (last.instructions.number - previous.instructions.number) /
      (last.cycles.number - previous.cycles.number)
  else 0

section Coefficient

variable {core : CPUCore ExactFloat} {previous last : CoreRecord ExactFloat}

theorem getCoreMetricsDelta_eq (estimated : Estimated core)
    (found : lastTwo core.recordBuffer = some (previous, last)) :
    ∃ metrics, core.getCoreMetricsDelta = some metrics ∧
      metrics.aperf = last.aperf - previous.aperf ∧ metrics.mperf = last.mperf - previous.mperf ∧
      metrics.tsc = last.tsc - previous.tsc ∧ metrics.ipc = .num (ipcBetween previous last) := by
  obtain ⟨older, listed⟩ := lastTwo_eq_some_iff.mp found
  obtain ⟨previousInst, previousCyc⟩ := estimated previous (by simp [listed])
  obtain ⟨lastInst, lastCyc⟩ := estimated last (by simp [listed])
  refine ⟨_, by rw [CPUCore.getCoreMetricsDelta, found]; rfl, rfl, rfl, rfl, ?_⟩
  simp only
  rw [previousInst, previousCyc, lastInst, lastCyc, ExactFloat.sub_num, ExactFloat.sub_num,
    ExactFloat.isPositive_num, ipcBetween]
  simp only [decide_eq_true_eq, sub_pos]
  by_cases grew : previous.cycles.number < last.cycles.number
  · rw [if_pos grew, if_pos grew]
    exact ExactFloat.div_num (sub_pos.mpr grew).ne' _
  · rw [if_neg grew, if_neg grew]
    rfl

theorem coefficient_eq (estimated : Estimated core)
    (found : lastTwo core.recordBuffer = some (previous, last)) :
    core.coefficient =
      if previous.tsc < last.tsc then
        Float64.mul (.num ((1 + ipcBetween previous last) * (last.aperf - previous.aperf : Nat)))
          (Float64.div (.num (last.aperf - previous.aperf : Nat))
            (.num (last.mperf - previous.mperf : Nat)))
      else .num 0 := by
  obtain ⟨metrics, delta, aperf, mperf, tsc, ipc⟩ := getCoreMetricsDelta_eq estimated found
  rw [CPUCore.coefficient, delta]
  simp only [aperf, mperf, tsc, ipc, Nat.sub_pos_iff_lt, ExactFloat.ofU64_eq, ExactFloat.add_num,
    ExactFloat.mul_num, Nat.cast_one, Nat.cast_zero]

/-- A growth that leaves `1 + ipc` from zero on. -/
theorem one_add_ipcBetween_nonneg_iff (previous last : CoreRecord ExactFloat) :
    0 ≤ 1 + ipcBetween previous last ↔
      last.cycles.number ≤ previous.cycles.number ∨
        previous.instructions.number + previous.cycles.number ≤
          last.instructions.number + last.cycles.number := by
  unfold ipcBetween
  split
  · rename_i grew
    have positive : 0 < last.cycles.number - previous.cycles.number := sub_pos.mpr grew
    rw [or_iff_right (not_le.mpr grew), ← div_self positive.ne', ← add_div, le_div_iff₀ positive,
      zero_mul]
    constructor <;> intro ordered <;> linarith
  · rename_i still
    exact iff_of_true (by norm_num) (Or.inl (not_lt.mp still))

/-- The sign of a coefficient. -/
theorem weighed_nonneg_iff (factor : ℚ) (aperf : Nat) {mperf : Nat} (awake : mperf ≠ 0) :
    0 ≤ factor * aperf * (aperf / mperf) ↔ aperf = 0 ∨ 0 ≤ factor := by
  rcases Nat.eq_zero_or_pos aperf with stood | moved
  · simp [stood]
  · have positive : (0 : ℚ) < aperf * (aperf / mperf) := by
      have : 0 < mperf := Nat.pos_of_ne_zero awake
      positivity
    rw [mul_assoc, mul_nonneg_iff_of_pos_right positive, or_iff_right moved.ne']

/-- The coefficient is a number from zero on just when the counters of the core are well
counted. -/
theorem coefficient_nonneg_iff (estimated : Estimated core) :
    (∃ q : ℚ, 0 ≤ q ∧ core.coefficient = .num q) ↔ WellCounted core := by
  cases found : lastTwo core.recordBuffer with
  | none =>
      refine iff_of_true ⟨0, le_rfl, ?_⟩ ?_
      · rw [CPUCore.coefficient, CPUCore.getCoreMetricsDelta, found]
        rfl
      · intro previous last isPair
        rw [found] at isPair
        cases isPair
  | some pair =>
      obtain ⟨previous, last⟩ := pair
      have counted_iff : WellCounted core ↔ (previous.tsc < last.tsc →
          previous.mperf < last.mperf ∧
            (last.aperf ≤ previous.aperf ∨ 0 ≤ 1 + ipcBetween previous last)) := by
        simp only [WellCounted, found, Option.some.injEq, Prod.mk.injEq,
          one_add_ipcBetween_nonneg_iff]
        constructor
        · intro counted
          exact counted previous last ⟨rfl, rfl⟩
        · rintro counted _ _ ⟨rfl, rfl⟩
          exact counted
      rw [coefficient_eq estimated found, counted_iff]
      by_cases moved : previous.tsc < last.tsc
      · rw [if_pos moved, forall_prop_of_true moved]
        by_cases awake : previous.mperf < last.mperf
        · have divisor : ((last.mperf - previous.mperf : Nat) : ℚ) ≠ 0 :=
            Nat.cast_ne_zero.mpr (Nat.sub_ne_zero_of_lt awake)
          rw [ExactFloat.div_num divisor, ExactFloat.mul_num, and_iff_right awake,
            ← Nat.sub_eq_zero_iff_le, ← weighed_nonneg_iff _ _ (Nat.sub_ne_zero_of_lt awake)]
          constructor
          · rintro ⟨q, nonneg, same⟩
            rwa [ExactFloat.num.inj same]
          · intro nonneg
            exact ⟨_, nonneg, rfl⟩
        · have stood : last.mperf - previous.mperf = 0 := by omega
          rw [stood, Nat.cast_zero, ExactFloat.div_zero]
          refine iff_of_false ?_ (fun both => awake both.1)
          rintro ⟨q, -, same⟩
          exact ExactFloat.mul_infinityOf_ne_num _ _ _ same
      · rw [if_neg moved]
        exact iff_of_true ⟨0, le_rfl, rfl⟩ fun advanced => absurd advanced moved

end Coefficient

/-! ## The socket -/

/-- The power of the cores of a socket: that of its `core` domain, else of the socket. -/
def CPUSocket.cpuPower (now : Nat) (socket : CPUSocket ExactFloat) : Option Nat :=
  (socket.getRecordsDiffPowerMicrowattsPerDomain now "core".toList).bind fun r => parseU64 r.value

/-- The coefficients are numbers from zero on, with zero for a core that stayed idle; the
proportions are a distribution or all zero, and so are the powers with the power of the
cores as their whole. -/
structure IsDistribution (now : Nat) (socket : CPUSocket ExactFloat) : Prop where
  coefs : ∀ coef ∈ socket.getCoreCoefs, ∃ q : ℚ, 0 ≤ q ∧ coef = .num q
  idle : ∀ core ∈ socket.cpuCores, ∀ previous last,
    lastTwo core.recordBuffer = some (previous, last) → last.aperf - previous.aperf = 0 →
      last.mperf - previous.mperf = 0 → previous.tsc < last.tsc → core.coefficient = .num 0
  proportions : ∃ parts : List ℚ, socket.getCoreProportions = parts.map .num ∧
    (∀ part ∈ parts, 0 ≤ part ∧ part ≤ 1) ∧ (parts.sum = 1 ∨ ∀ part ∈ parts, part = 0)
  powers : ∀ record, socket.getProportionalCoreDiffPowerMicrowatts now = some record →
    ∃ (powers : List ℚ) (whole : Nat), record.values = powers.map .num ∧
      socket.cpuPower now = some whole ∧ (powers.sum = whole ∨ ∀ power ∈ powers, power = 0)

section Socket

variable {socket : CPUSocket ExactFloat}

theorem mem_getCores_iff {core : CPUCore ExactFloat} :
    core ∈ socket.getCores ↔ core ∈ socket.cpuCores :=
  (sortById_perm CPUCore.id socket.cpuCores).mem_iff

/-- The part of a core in the sum of all coefficients. -/
def corePart (socket : CPUSocket ExactFloat) (core : CPUCore ExactFloat) : ℚ :=
  core.coefficient.number / (socket.getCores.map fun core => core.coefficient.number).sum

/-- All coefficients of the socket are numbers from zero on. -/
def Nonneg (socket : CPUSocket ExactFloat) : Prop :=
  ∀ core ∈ socket.cpuCores, 0 ≤ core.coefficient.number ∧
    core.coefficient = .num core.coefficient.number

theorem getCoreCoefs_of_nonneg (nonneg : Nonneg socket) :
    socket.getCoreCoefs = socket.getCores.map fun core => .num core.coefficient.number := by
  rw [CPUSocket.getCoreCoefs_eq]
  exact List.map_congr_left fun core member => (nonneg core (mem_getCores_iff.mp member)).2

theorem getCoreProportions_of_nonneg (nonneg : Nonneg socket) :
    socket.getCoreProportions = socket.getCores.map fun core => .num (corePart socket core) := by
  rw [CPUSocket.getCoreProportions, getCoreCoefs_of_nonneg nonneg]
  simp only [ExactFloat.sum_num, List.map_map]
  refine List.map_congr_left fun core _ => ?_
  simp only [Function.comp_apply, corePart]
  split
  · rename_i zero
    have none : (socket.getCores.map fun core => core.coefficient.number).sum = 0 :=
      of_decide_eq_true zero
    rw [none, div_zero]
    rfl
  · rename_i nonzero
    refine ExactFloat.div_num ?_ _
    intro none
    exact nonzero (decide_eq_true none)

theorem corePart_nonneg (nonneg : Nonneg socket) {core : CPUCore ExactFloat}
    (member : core ∈ socket.getCores) : 0 ≤ corePart socket core ∧ corePart socket core ≤ 1 := by
  have parts : ∀ part ∈ socket.getCores.map fun core => core.coefficient.number, 0 ≤ part := by
    intro part isPart
    obtain ⟨other, isOther, rfl⟩ := List.mem_map.mp isPart
    exact (nonneg other (mem_getCores_iff.mp isOther)).1
  have here := (nonneg core (mem_getCores_iff.mp member)).1
  have below : core.coefficient.number ≤
      (socket.getCores.map fun core => core.coefficient.number).sum :=
    List.single_le_sum parts _ (List.mem_map.mpr ⟨core, member, rfl⟩)
  exact ⟨div_nonneg here (here.trans below), div_le_one_of_le₀ below (here.trans below)⟩

theorem sum_corePart (socket : CPUSocket ExactFloat) :
    (socket.getCores.map (corePart socket)).sum = 1 ∨
      ∀ core ∈ socket.getCores, corePart socket core = 0 := by
  by_cases nothing : (socket.getCores.map fun core => core.coefficient.number).sum = 0
  · refine Or.inr fun core _ => ?_
    rw [corePart, nothing, div_zero]
  · refine Or.inl ?_
    unfold corePart
    simp only [div_eq_mul_inv]
    rw [List.sum_map_mul_right, mul_inv_cancel₀ nothing]

theorem nonneg_of_wellCounted (estimated : ∀ core ∈ socket.cpuCores, Estimated core)
    (counted : ∀ core ∈ socket.cpuCores, WellCounted core) : Nonneg socket := by
  intro core member
  obtain ⟨q, nonneg, same⟩ := (coefficient_nonneg_iff (estimated core member)).mpr
    (counted core member)
  rw [same]
  exact ⟨nonneg, rfl⟩

theorem powers_of_nonneg (nonneg : Nonneg socket) {now : Nat}
    {record : MultiValuedRecord ExactFloat}
    (read : socket.getProportionalCoreDiffPowerMicrowatts now = some record) :
    ∃ (powers : List ℚ) (whole : Nat), record.values = powers.map .num ∧
      socket.cpuPower now = some whole ∧ (powers.sum = whole ∨ ∀ power ∈ powers, power = 0) := by
  unfold CPUSocket.getProportionalCoreDiffPowerMicrowatts at read
  split at read
  · rename_i whole power
    cases read
    refine ⟨socket.getCores.map fun core => corePart socket core * whole, whole, ?_, power, ?_⟩
    · simp only [getCoreProportions_of_nonneg nonneg, List.map_map]
      rfl
    · rcases sum_corePart socket with all | nothing
      · refine Or.inl ?_
        rw [List.sum_map_mul_right, all, one_mul]
      · refine Or.inr fun power isPower => ?_
        obtain ⟨core, member, rfl⟩ := List.mem_map.mp isPower
        rw [nothing core member, zero_mul]
  · cases read

/-- The cores of a socket share its power by a distribution just when all their counters are
well counted. -/
theorem isDistribution_iff_wellCounted (now : Nat) {socket : CPUSocket ExactFloat}
    (estimated : ∀ core ∈ socket.cpuCores, Estimated core) :
    IsDistribution now socket ↔ ∀ core ∈ socket.cpuCores, WellCounted core := by
  constructor
  · intro distribution core member
    refine (coefficient_nonneg_iff (estimated core member)).mp (distribution.coefs _ ?_)
    rw [CPUSocket.getCoreCoefs_eq]
    exact List.mem_map_of_mem (mem_getCores_iff.mpr member)
  · intro counted
    have nonneg := nonneg_of_wellCounted estimated counted
    refine ⟨?_, ?_, ?_, fun record read => powers_of_nonneg nonneg read⟩
    · intro coef isCoef
      rw [getCoreCoefs_of_nonneg nonneg] at isCoef
      obtain ⟨core, member, rfl⟩ := List.mem_map.mp isCoef
      exact ⟨_, (nonneg core (mem_getCores_iff.mp member)).1, rfl⟩
    · intro core member previous last found _ stood moved
      have awake := (counted core member previous last found moved).1
      omega
    · refine ⟨socket.getCores.map (corePart socket), ?_, ?_, ?_⟩
      · rw [getCoreProportions_of_nonneg nonneg, List.map_map]
        rfl
      · intro part isPart
        obtain ⟨core, member, rfl⟩ := List.mem_map.mp isPart
        exact corePart_nonneg nonneg member
      · rcases sum_corePart socket with all | nothing
        · exact Or.inl all
        · refine Or.inr fun part isPart => ?_
          obtain ⟨core, member, rfl⟩ := List.mem_map.mp isPart
          exact nothing core member

end Socket

/-- A record of a core with these counters. -/
def countedRecord (timestamp mperf aperf tsc : Nat) (instructions cycles : ℚ) :
    CoreRecord ExactFloat :=
  ⟨timestamp, 0, mperf, aperf, 0, 0, 0, 0, .num instructions, .num cycles, tsc⟩

/-- A socket that drew 100 microwatts over the last second, with these cores. -/
def countedSocket (cores : List (CPUCore ExactFloat)) : CPUSocket ExactFloat where
  id := 0
  domains := []
  recordBuffer := [⟨0, toText 0, .microJoule⟩, ⟨10 ^ 9, toText 100, .microJoule⟩]
  bufferMaxKbytes := 1
  activationIdleBuffer := []
  cpuCores := cores
  raplMaxUj := 1000

/-- One core that ran at full speed, one that halted part of the time. -/
def awakeCores : List (CPUCore ExactFloat) :=
  [⟨0, [countedRecord 0 0 0 0 0 0, countedRecord 1 10 10 10 20 10], 1⟩,
    ⟨1, [countedRecord 0 0 0 0 0 0, countedRecord 1 4 2 10 2 2], 1⟩]

theorem isDistribution_iff_wellCounted_awake : IsDistribution 0 (countedSocket awakeCores) := by
  have estimated : ∀ core ∈ (countedSocket awakeCores).cpuCores, Estimated core := by
    unfold Estimated
    decide +kernel
  have counted : ∀ core ∈ (countedSocket awakeCores).cpuCores, WellCounted core := by
    intro core member
    rcases List.mem_cons.mp member with rfl | member
    · rintro previous last ⟨⟩ -
      exact ⟨by decide, Or.inr (Or.inr (by norm_num [countedRecord, ExactFloat.number]))⟩
    · obtain rfl := List.mem_singleton.mp member
      rintro previous last ⟨⟩ -
      exact ⟨by decide, Or.inr (Or.inr (by norm_num [countedRecord, ExactFloat.number]))⟩
  exact (isDistribution_iff_wellCounted 0 estimated).mpr counted

/-- The second core did not leave its idle state: its coefficient is no number, and no core
gets a power. -/
theorem not_isDistribution_of_idle_core :
    ¬ IsDistribution 0 (countedSocket
      [⟨0, [countedRecord 0 0 0 0 0 0, countedRecord 1 10 10 10 20 10], 1⟩,
        ⟨1, [countedRecord 0 5 5 0 0 0, countedRecord 1 5 5 10 0 0], 1⟩]) := by
  intro distribution
  have idle := distribution.idle _ (List.mem_cons_of_mem _ List.mem_cons_self) _ _ rfl rfl rfl
    (by decide)
  exact absurd idle (by decide +kernel)

end ScaphandreFormal.Sensors
