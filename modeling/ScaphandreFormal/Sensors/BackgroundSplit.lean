import ScaphandreFormal.Foundation.Apportionment
import ScaphandreFormal.Sensors.Background

/-!
# The background of a socket over its domains

`distribute_background_to_domains` multiplies the background of the socket by
the power of each domain and divides by the power of the socket.  The parts make
up the background when the powers of the domains make up that of the socket.
Without a background nothing is written, and the parts of an earlier one stay.
-/

namespace ScaphandreFormal.Sensors

open Foundation

variable {F : Type} [Float64 F]

namespace Domain

/-- The power that the domain reports, its background subtracted. -/
def activePower (domain : Domain F) : Nat :=
  valueOrZero domain.getRecordsDiffPowerMicrowatts

/-- The power between the last two records before the subtraction. -/
def measuredPower (domain : Domain F) : Nat :=
  ((lastTwo domain.recordBuffer).bind fun pair =>
    powerBetween F domain.raplMaxUj pair.1 pair.2).getD 0

theorem activePower_eq (domain : Domain F) :
    domain.activePower = domain.measuredPower - Float64.asU64 domain.backgroundPowerUw := by
  unfold activePower measuredPower getRecordsDiffPowerMicrowatts diffPower valueOrZero
  cases lastTwo domain.recordBuffer with
  | none => simp
  | some pair =>
      obtain ⟨previous, last⟩ := pair
      cases between : powerBetween F domain.raplMaxUj previous last with
      | none => simp [between]
      | some power =>
          have bounded : power - Float64.asU64 domain.backgroundPowerUw ≤ u64Max :=
            Nat.le_trans (Nat.sub_le _ _) (CPUSocket.powerBetween_le between)
          simp [between, parseU64_toText bounded]

theorem activePower_le (domain : Domain F) : domain.activePower ≤ domain.measuredPower := by
  rw [activePower_eq]
  exact Nat.sub_le _ _

end Domain

namespace CPUSocket

/-- The active power of the socket as a number. -/
def activePower (now : Nat) (socket : CPUSocket F) : Nat :=
  valueOrZero (socket.getRecordsDiffPowerMicrowatts now)

/-- The background that a domain of the socket has after the distribution. -/
def distributedShare (now : Nat) (socket : CPUSocket ExactFloat) (domain : Domain ExactFloat) :
    ExactFloat :=
  if socket.backgroundPower now = 0 then domain.backgroundPowerUw
  else if socket.activePower now = 0 then .num (socket.backgroundPower now / socket.domains.length)
  else .num (socket.backgroundPower now * (domain.activePower / socket.activePower now))

theorem backgrounds_distribute {socket : CPUSocket ExactFloat} (nonempty : socket.domains ≠ [])
    (now : Nat) :
    (socket.distributeBackgroundToDomains now).domains.map Domain.backgroundPowerUw =
      socket.domains.map (socket.distributedShare now) := by
  have count : (socket.domains.length : ℚ) ≠ 0 :=
    Nat.cast_ne_zero.mpr fun short => nonempty (List.length_eq_zero_iff.mp short)
  have zero_iff : (Float64.isZero (floatOrZero (socket.getBackgroundPowerMicrowatts now) :
      ExactFloat)) = true ↔ socket.backgroundPower now = 0 := by
    simp [floatOrZero, Float64.isZero, ExactFloat.isZero, backgroundPower]
  have positive_iff : (Float64.isPositive (floatOrZero (socket.getRecordsDiffPowerMicrowatts now) :
      ExactFloat)) = true ↔ socket.activePower now ≠ 0 := by
    simp [floatOrZero, Float64.isPositive, ExactFloat.isPositive, activePower, Nat.pos_iff_ne_zero]
  unfold distributeBackgroundToDomains
  by_cases none : socket.backgroundPower now = 0
  · rw [if_pos (zero_iff.mpr none)]
    refine List.map_congr_left fun domain _ => ?_
    rw [distributedShare, if_pos none]
  · rw [if_neg (mt zero_iff.mp none), List.map_map]
    refine List.map_congr_left fun domain _ => ?_
    rw [distributedShare, if_neg none]
    simp only [Function.comp_apply]
    by_cases inactive : socket.activePower now = 0
    · rw [if_neg (fun positive => positive_iff.mp positive inactive), if_pos inactive]
      exact ExactFloat.div_num count _
    · rw [if_pos (positive_iff.mpr inactive), if_neg inactive]
      have whole : (socket.activePower now : ℚ) ≠ 0 := Nat.cast_ne_zero.mpr inactive
      exact congrArg (Float64.mul _) (ExactFloat.div_num whole _)

/-! ## Splitting without gain, loss or residue -/

/-- After the distribution the backgrounds of the domains are numbers from zero on, make up
that of the socket, and are in the proportion of what `own` takes for the power of a
domain. -/
def SplitsBackground (own : Domain ExactFloat → Nat) (now : Nat) (socket : CPUSocket ExactFloat) :
    Prop :=
  ∃ share : Domain ExactFloat → ℚ,
    (socket.distributeBackgroundToDomains now).domains.map Domain.backgroundPowerUw =
        socket.domains.map (fun domain => .num (share domain)) ∧
      (∀ domain ∈ socket.domains, 0 ≤ share domain) ∧
      (socket.domains.map share).sum = socket.backgroundPower now ∧
      InProportion own share socket.domains

/-- Nothing to split and nothing left over; or powers that are all equal on a socket without
active power; or powers that make up the active power of the socket and are in the
proportion of those that the code weighs with. -/
def Balanced (own : Domain ExactFloat → Nat) (now : Nat) (socket : CPUSocket ExactFloat) : Prop :=
  if socket.backgroundPower now = 0 then
    ∀ domain ∈ socket.domains, domain.backgroundPowerUw = .num 0
  else if socket.activePower now = 0 then
    ∀ domain ∈ socket.domains, ∀ other ∈ socket.domains, own domain = own other
  else
    (socket.domains.map Domain.activePower).sum = socket.activePower now ∧
      ∀ domain ∈ socket.domains,
        domain.activePower * (socket.domains.map own).sum = socket.activePower now * own domain

variable {own : Domain ExactFloat → Nat} {now : Nat} {socket : CPUSocket ExactFloat}

theorem splitsBackground_iff_shares (nonempty : socket.domains ≠ []) :
    SplitsBackground own now socket ↔ ∀ domain ∈ socket.domains,
      socket.distributedShare now domain =
        .num (proportionalShare (socket.backgroundPower now : ℚ) own socket.domains domain) := by
  unfold SplitsBackground
  rw [backgrounds_distribute nonempty]
  constructor
  · rintro ⟨share, after, _, all, inProportion⟩ domain member
    rw [List.map_inj_left] at after
    rw [after domain member, (sum_eq_and_inProportion_iff nonempty).mp ⟨all, inProportion⟩ domain
      member]
  · intro shares
    refine ⟨_, List.map_inj_left.mpr shares, ?_,
      (sum_eq_and_inProportion_iff nonempty).mpr fun _ _ => rfl⟩
    intro domain _
    unfold proportionalShare
    split <;> positivity

/-- What the code gives is proportional just when the powers it weighs with are, and then
they make up the power it divides by. -/
theorem weighedShares_iff (nonempty : socket.domains ≠ []) {whole divisor : Nat}
    (wholePositive : whole ≠ 0) (divisorPositive : divisor ≠ 0)
    (below : ∀ domain ∈ socket.domains, domain.activePower ≤ own domain) :
    (∀ domain ∈ socket.domains, (whole : ℚ) * (domain.activePower / divisor) =
        proportionalShare (whole : ℚ) own socket.domains domain) ↔
      (socket.domains.map Domain.activePower).sum = divisor ∧
        ∀ domain ∈ socket.domains,
          domain.activePower * (socket.domains.map own).sum = divisor * own domain := by
  have counted : (socket.domains.length : ℚ) ≠ 0 :=
    Nat.cast_ne_zero.mpr fun short => nonempty (List.length_eq_zero_iff.mp short)
  have wholeNonzero : (whole : ℚ) ≠ 0 := Nat.cast_ne_zero.mpr wholePositive
  have divisorNonzero : (divisor : ℚ) ≠ 0 := Nat.cast_ne_zero.mpr divisorPositive
  unfold proportionalShare
  split
  · rename_i weightless
    have zero : ∀ domain ∈ socket.domains, domain.activePower = 0 := fun domain member =>
      Nat.le_zero.mp ((below domain member).trans
        (List.sum_eq_zero_iff.mp weightless _ (List.mem_map_of_mem member)).le)
    obtain ⟨first, isFirst⟩ := List.exists_mem_of_ne_nil _ nonempty
    refine iff_of_false ?_ ?_
    · intro shares
      have part := shares first isFirst
      rw [zero first isFirst, Nat.cast_zero, zero_div, mul_zero] at part
      exact (div_ne_zero wholeNonzero counted) part.symm
    · rintro ⟨all, -⟩
      rw [List.map_congr_left zero, List.map_const', List.sum_replicate, nsmul_eq_mul,
        mul_zero] at all
      exact divisorPositive all.symm
  · rename_i weighty
    have total : (((socket.domains.map own).sum : Nat) : ℚ) ≠ 0 := Nat.cast_ne_zero.mpr weighty
    have cross : ∀ domain : Domain ExactFloat, (whole : ℚ) * (domain.activePower / divisor) =
        whole * own domain / ((socket.domains.map own).sum : Nat) ↔
          domain.activePower * (socket.domains.map own).sum = divisor * own domain := by
      intro domain
      rw [mul_div_assoc, mul_right_inj' wholeNonzero, div_eq_div_iff divisorNonzero total,
        mul_comm (own domain : ℚ), ← Nat.cast_mul, ← Nat.cast_mul, Nat.cast_inj]
    simp only [cross]
    refine ⟨fun shares => ⟨?_, shares⟩, fun both => both.2⟩
    -- Summed over the domains, both sides have the whole weight as a factor.
    have summed := congrArg List.sum (List.map_congr_left shares)
    rw [List.sum_map_mul_right, List.sum_map_mul_left] at summed
    exact Nat.eq_of_mul_eq_mul_right (Nat.pos_of_ne_zero weighty) summed

theorem splitsBackground_iff_balanced_of_le (nonempty : socket.domains ≠ [])
    (below : ∀ domain ∈ socket.domains, domain.activePower ≤ own domain) :
    SplitsBackground own now socket ↔ Balanced own now socket := by
  rw [splitsBackground_iff_shares nonempty]
  unfold distributedShare Balanced
  by_cases nothing : socket.backgroundPower now = 0
  · simp only [nothing, if_true, Nat.cast_zero, proportionalShare, zero_div, zero_mul, ite_self]
  · simp only [if_neg nothing]
    by_cases inactive : socket.activePower now = 0
    · simp only [if_pos inactive, ExactFloat.num.injEq]
      exact equal_eq_proportionalShare_iff (Nat.cast_ne_zero.mpr nothing) nonempty
    · simp only [if_neg inactive, ExactFloat.num.injEq]
      exact weighedShares_iff nonempty nothing inactive below

/-- The condition for the powers that the domains report. -/
def MakesUp (now : Nat) (socket : CPUSocket ExactFloat) : Prop :=
  if socket.backgroundPower now = 0 then
    ∀ domain ∈ socket.domains, domain.backgroundPowerUw = .num 0
  else if socket.activePower now = 0 then
    ∀ domain ∈ socket.domains, ∀ other ∈ socket.domains, domain.activePower = other.activePower
  else (socket.domains.map Domain.activePower).sum = socket.activePower now

/-- The background is split without gain, loss or residue, in proportion to the powers that
the domains report, just when these make up the power of the socket; and in proportion to
the powers measured just when they are in the same proportion as well.  Apart from that
there must be nothing to split and nothing left over, or no active power and equal ones. -/
theorem splitsBackground_iff (now : Nat) {socket : CPUSocket ExactFloat}
    (nonempty : socket.domains ≠ []) :
    (SplitsBackground Domain.activePower now socket ↔ MakesUp now socket) ∧
      (SplitsBackground Domain.measuredPower now socket ↔
        Balanced Domain.measuredPower now socket) := by
  constructor
  · rw [splitsBackground_iff_balanced_of_le nonempty fun _ _ => Nat.le_refl _, Balanced, MakesUp]
    split
    · exact Iff.rfl
    · split
      · exact Iff.rfl
      · refine and_iff_left_of_imp fun all domain _ => ?_
        rw [all, Nat.mul_comm]
  · exact splitsBackground_iff_balanced_of_le nonempty fun domain _ => domain.activePower_le

/-- A socket that drew 100 microwatts over the last second, with an idle estimate of 10, and
domains that drew the given powers. -/
def drawingSocket (domainPowers : List Nat) : CPUSocket ExactFloat where
  id := 0
  domains := domainPowers.mapIdx fun index power =>
    let name := (if index = 0 then "core" else "uncore").toList
    ⟨index, name, [⟨0, toText 0, .microJoule⟩, ⟨10 ^ 9, toText power, .microJoule⟩], 1, 1000,
      .num 0, some name⟩
  recordBuffer := [⟨0, toText 0, .microJoule⟩, ⟨10 ^ 9, toText 100, .microJoule⟩]
  bufferMaxKbytes := 1
  activationIdleBuffer := [⟨0, [toText 10, toText 0], [.microWatt, .microWatt]⟩]
  cpuCores := []
  raplMaxUj := 1000

/-- Two domains draw the active power between them, one twice as much as the other. -/
theorem splitsBackground_iff_two_domains :
    SplitsBackground Domain.activePower 0 (drawingSocket [60, 30]) ∧
      SplitsBackground Domain.measuredPower 0 (drawingSocket [60, 30]) := by
  have nonempty : (drawingSocket [60, 30]).domains ≠ [] := List.cons_ne_nil _ _
  have makesUp : MakesUp 0 (drawingSocket [60, 30]) := by
    rw [MakesUp, if_neg (by decide +kernel), if_neg (by decide +kernel)]
    decide +kernel
  have balanced : Balanced Domain.measuredPower 0 (drawingSocket [60, 30]) := by
    rw [Balanced, if_neg (by decide +kernel), if_neg (by decide +kernel)]
    decide +kernel
  exact ⟨(splitsBackground_iff 0 nonempty).1.mpr makesUp,
    (splitsBackground_iff 0 nonempty).2.mpr balanced⟩

/-- The domain draws half of the active power and gets half of the background, so that the
other half is nowhere. -/
theorem not_splitsBackground_of_half_power :
    (drawingSocket [45]).domains ≠ [] ∧
      ∀ own, ¬ SplitsBackground own 0 (drawingSocket [45]) := by
  refine ⟨List.cons_ne_nil _ _, ?_⟩
  rintro own ⟨share, after, -, all, -⟩
  have given : ((drawingSocket [45]).distributeBackgroundToDomains 0).domains.map
      Domain.backgroundPowerUw = [.num 5] := by decide +kernel
  have background : (drawingSocket [45]).backgroundPower 0 = 10 := by decide +kernel
  rw [given] at after
  rw [background] at all
  simp only [drawingSocket, List.mapIdx_cons, List.mapIdx_nil, List.map_cons, List.map_nil,
    List.cons.injEq, ExactFloat.num.injEq, and_true, List.sum_cons, List.sum_nil,
    add_zero] at after all
  rw [← after] at all
  norm_num at all

end CPUSocket

end ScaphandreFormal.Sensors
