import ScaphandreFormal.Sensors.CorePowers
import Mathlib.Tactic.FieldSimp

/-!
# The power of a process without rounding

Without rounding, the power of a process is the apportioned sum of the core
powers with its shares: the part of the core's `CPU_TIME` that its core times
grew by, or, in the fallback, the product of its and the core's part of the
busy time of the node.
-/

namespace ScaphandreFormal.Sensors

open Foundation

variable {Trace : Type}

/-! ## The deltas -/

/-- The delta that the tracker returns for a CPU, zero without core times. -/
def ProcessTracker.coreTimeDelta (tracker : ProcessTracker Trace) (pid cpu : Nat) : Nat :=
  (((tracker.getPerCoreCpuTimeDelta pid).bind fun deltas => deltas[cpu]?).map
    UInt64.toNat).getD 0

/-- The growth of `cpu_busy_time` over the last two records. -/
def ProcessTracker.cpuBusyDelta (tracker : ProcessTracker Trace) (pid : Nat) : Nat :=
  match tracker.findRecords pid with
  | some (last :: prev :: _) => last.process.cpuBusyTime - prev.process.cpuBusyTime
  | _ => 0

/-- The growth of the busy time of a core over its last two records. -/
def CPUCore.busyDelta {F : Type} (core : CPUCore F) : Nat :=
  match lastTwo core.recordBuffer with
  | some (previous, last) => last.coreBusy - previous.coreBusy
  | none => 0

namespace Topology

section

variable {F : Type}

/-- The growth of `CPU_TIME` over its last two records. -/
def cpuTimeGrowth (topology : Topology F Trace) (cpu : Nat) : Nat :=
  match lastTwo topology.cpuTimeBuffer with
  | some (prev, last) =>
      match last.values[cpu]?, prev.values[cpu]? with
      | some l, some p => cpuTimeDelta l p
      | _, _ => 0
  | none => 0

theorem cpuTimeDelta_le (last previous : Text) : cpuTimeDelta last previous ≤ u64Max := by
  have fits : ∀ text : Text, (parseU64 text).getD 0 ≤ u64Max := by
    intro text
    cases parsed : parseU64 text with
    | none => exact Nat.zero_le _
    | some value => exact parseU64_le parsed
  have lastFits := fits last
  have previousFits := fits previous
  unfold cpuTimeDelta
  simp only
  split
  · omega
  · omega

/-- The totals the attribution divides by are the growths of `CPU_TIME`. -/
theorem totalNsOf_eq {topology : Topology F Trace} {diff : MultiValuedRecord Text}
    (read : topology.getCpuTimeDiff = some diff) (core : CPUCore F) :
    totalNsOf diff core = topology.cpuTimeGrowth core.id := by
  unfold getCpuTimeDiff at read
  unfold cpuTimeGrowth totalNsOf
  cases records : lastTwo topology.cpuTimeBuffer with
  | none => rw [records] at read; cases read
  | some pair =>
      rw [records] at read
      simp only at read
      split at read
      · cases read
      · cases read
        simp only [List.getElem?_zipWith]
        cases pair.2.values[core.id]? with
        | none => rfl
        | some l =>
            cases pair.1.values[core.id]? with
            | none => rfl
            | some p => simp [parseU64_toText (cpuTimeDelta_le l p)]

/-- `CPU_TIME` that grew on some CPU has a difference. -/
theorem getCpuTimeDiff_of_growth {topology : Topology F Trace} {cpu : Nat}
    (grew : topology.cpuTimeGrowth cpu ≠ 0) : ∃ diff, topology.getCpuTimeDiff = some diff := by
  unfold cpuTimeGrowth at grew
  unfold getCpuTimeDiff
  cases records : lastTwo topology.cpuTimeBuffer with
  | none => rw [records] at grew; exact absurd rfl grew
  | some pair =>
      refine ⟨_, if_neg ?_⟩
      intro allZero
      rw [records] at grew
      apply grew
      simp only
      cases lastText : pair.2.values[cpu]? with
      | none => rfl
      | some l =>
          cases previousText : pair.1.values[cpu]? with
          | none => rfl
          | some p =>
              have shown : toText (cpuTimeDelta l p) ∈ List.zipWith
                  (fun l p => toText (cpuTimeDelta l p)) pair.2.values pair.1.values := by
                apply List.mem_iff_getElem?.mpr
                exact ⟨cpu, by rw [List.getElem?_zipWith, lastText, previousText]⟩
              have zero := of_decide_eq_true (List.all_eq_true.mp allZero _ shown)
              exact toText_injective zero

end

/-! ## The power of one process without rounding -/

/-- The part of the core's `CPU_TIME` that the core times of the process grew by. -/
def ebpfShare (topology : Topology ExactFloat Trace) (pid : Nat) (core : CPUCore ExactFloat) : ℚ :=
  topology.procTracker.coreTimeDelta pid core.id / topology.cpuTimeGrowth core.id

/-- The product of the parts of the node's busy time. -/
def fallbackShare (topology : Topology ExactFloat Trace) (nodeDelta pid : Nat)
    (core : CPUCore ExactFloat) : ℚ :=
  topology.procTracker.cpuBusyDelta pid / nodeDelta * (core.busyDelta / nodeDelta)

/-- The core powers are these numbers. -/
def HasCorePowers (now : Nat) (topology : Topology ExactFloat Trace)
    (powers : List (CPUCore ExactFloat × ℚ)) : Prop :=
  topology.corePowers now = powers.map fun source => (source.1, .num source.2)

instance (now : Nat) (topology : Topology ExactFloat Trace)
    (powers : List (CPUCore ExactFloat × ℚ)) : Decidable (topology.HasCorePowers now powers) :=
  inferInstanceAs (Decidable (_ = _))

theorem attributedResult_exact {now : Nat} {topology : Topology ExactFloat Trace}
    {powers : List (CPUCore ExactFloat × ℚ)} (read : topology.HasCorePowers now powers)
    (share : CPUCore ExactFloat → ℚ) :
    topology.attributedResult now (topology.getCores.map fun core => .num (share core)) =
      .ok (.num (apportioned powers share)) := by
  have sorted : topology.sortedCorePowers now =
      (sortById (fun source => source.1.id) powers).map
        fun source => (source.1, .num source.2) := by
    rw [sortedCorePowers, read]
    exact (map_sortById (fun source : CPUCore ExactFloat × ℚ => (source.1, ExactFloat.num source.2))
      (fun source => source.1.id) powers).symm
  have numbers := ExactFloat.sum_num
    (fun source : CPUCore ExactFloat × ℚ => source.2 * share source.1)
    (sortById (fun source => source.1.id) powers)
  have perm := apportioned_perm (sortById_perm (fun source => source.1.id) powers) share
  rw [attributedResult_eq, sorted, List.map_map, ← perm]
  exact congrArg Except.ok numbers

theorem indexed_getD {deltas : List UInt64} {cpu : Nat} (inside : cpu < deltas.length) :
    indexed deltas cpu = .ok (deltas[cpu]?.getD 0) := by
  rw [indexed, List.getElem?_eq_getElem inside]
  rfl

theorem coreTimeDelta_eq {tracker : ProcessTracker Trace} {pid : Nat} {deltas : List UInt64}
    (timed : tracker.getPerCoreCpuTimeDelta pid = some deltas) (cpu : Nat) :
    tracker.coreTimeDelta pid cpu = (deltas[cpu]?.getD 0).toNat := by
  rw [ProcessTracker.coreTimeDelta, timed, Option.bind_some]
  cases deltas[cpu]? with
  | none => rfl
  | some delta => rfl

/-- The proportion of one core is the share, cut at one. -/
theorem proportion_eq {topology : Topology ExactFloat Trace} {pid : Nat} {deltas : List UInt64}
    {diff : MultiValuedRecord Text} {core : CPUCore ExactFloat}
    (timed : topology.procTracker.getPerCoreCpuTimeDelta pid = some deltas)
    (read : topology.getCpuTimeDiff = some diff) (inside : core.id < deltas.length) :
    (if 0 < totalNsOf diff core then do
        let delta ← indexed deltas core.id
        return Float64.min (Float64.div (Float64.ofU64 delta.toNat)
          (Float64.ofU64 (totalNsOf diff core))) (Float64.ofU64 1)
      else return Float64.ofU64 0 : Except Panic ExactFloat) =
      .ok (.num (min (topology.ebpfShare pid core) 1)) := by
  have delta := coreTimeDelta_eq timed core.id
  rw [totalNsOf_eq read, indexed_getD inside, ebpfShare]
  split
  · rename_i positive
    have nonzero : (topology.cpuTimeGrowth core.id : ℚ) ≠ 0 := by
      exact_mod_cast Nat.pos_iff_ne_zero.mp positive
    rw [delta]
    change Except.ok (Float64.min (Float64.div _ _) _) = _
    rw [ExactFloat.ofU64_eq, ExactFloat.ofU64_eq, ExactFloat.ofU64_eq, ExactFloat.div_num nonzero,
      ExactFloat.min_num, Nat.cast_one]
  · rename_i notPositive
    have zero : topology.cpuTimeGrowth core.id = 0 := by omega
    rw [zero, Nat.cast_zero, div_zero, min_eq_left zero_le_one]
    rfl

/-- The core time data of a process with core times. -/
theorem getProcessCoreTimeData_of_timed {topology : Topology ExactFloat Trace} {pid : Nat}
    {deltas : List UInt64} {diff : MultiValuedRecord Text}
    (timed : topology.procTracker.getPerCoreCpuTimeDelta pid = some deltas)
    (differs : topology.getCpuTimeDiff = some diff)
    (covered : ∀ core ∈ topology.getCores, core.id < deltas.length) :
    topology.getProcessCoreTimeData pid = .ok (some
      ⟨(topology.getCores.map fun core => deltas[core.id]?.getD 0).map UInt64.toNat,
        topology.getCores.map (totalNsOf diff),
        topology.getCores.map fun core => .num (min (topology.ebpfShare pid core) 1)⟩) := by
  have proportions := mapM_eq_ok fun core member =>
    proportion_eq timed differs (covered core member)
  have processNs := mapM_eq_ok fun core member =>
    indexed_getD (covered core member)
  unfold getProcessCoreTimeData
  simp only [timed, differs, proportions, processNs]
  rfl

/-- Where no share exceeds one, the proportions are the shares. -/
theorem getProcessCoreTimeData_of_ebpf {topology : Topology ExactFloat Trace} {pid : Nat}
    {deltas : List UInt64} {diff : MultiValuedRecord Text}
    (timed : topology.procTracker.getPerCoreCpuTimeDelta pid = some deltas)
    (differs : topology.getCpuTimeDiff = some diff)
    (covered : ∀ core ∈ topology.getCores, core.id < deltas.length)
    (within : ∀ core ∈ topology.getCores,
      topology.procTracker.coreTimeDelta pid core.id ≤ topology.cpuTimeGrowth core.id) :
    topology.getProcessCoreTimeData pid = .ok (some
      ⟨(topology.getCores.map fun core => deltas[core.id]?.getD 0).map UInt64.toNat,
        topology.getCores.map (totalNsOf diff),
        topology.getCores.map fun core => .num (topology.ebpfShare pid core)⟩) := by
  have uncut : (topology.getCores.map fun core =>
        ExactFloat.num (min (topology.ebpfShare pid core) 1)) =
      topology.getCores.map fun core => .num (topology.ebpfShare pid core) := by
    apply List.map_congr_left
    intro core member
    have most : topology.ebpfShare pid core ≤ 1 :=
      div_le_one_of_le₀ (by exact_mod_cast within core member) (by positivity)
    rw [min_eq_left most]
  rw [getProcessCoreTimeData_of_timed timed differs covered, uncut]

/-- A process with core times gets its shares of the core powers. -/
theorem processPower_of_ebpf {now : Nat} {topology : Topology ExactFloat Trace}
    {powers : List (CPUCore ExactFloat × ℚ)} {pid : Nat} {deltas : List UInt64}
    {diff : MultiValuedRecord Text} (read : topology.HasCorePowers now powers)
    (timed : topology.procTracker.getPerCoreCpuTimeDelta pid = some deltas)
    (differs : topology.getCpuTimeDiff = some diff)
    (covered : ∀ core ∈ topology.getCores, core.id < deltas.length)
    (within : ∀ core ∈ topology.getCores,
      topology.procTracker.coreTimeDelta pid core.id ≤ topology.cpuTimeGrowth core.id) :
    topology.processPower now pid = .ok (.num (apportioned powers (topology.ebpfShare pid))) := by
  have data := getProcessCoreTimeData_of_ebpf timed differs covered within
  have shared := getProcessCoreProportions_of_some data
  obtain ⟨record, tracked⟩ := getProcessLastRecord_of_timed timed
  exact processPower_of_proportions tracked data shared (attributedResult_exact read _)

/-- The process is attributed by the fallback. -/
def FallsBack (topology : Topology ExactFloat Trace) (pid : Nat) : Prop :=
  topology.procTracker.getPerCoreCpuTimeDelta pid = none ∨ topology.getCpuTimeDiff = none

instance (topology : Topology ExactFloat Trace) (pid : Nat) :
    Decidable (topology.FallsBack pid) :=
  inferInstanceAs (Decidable (_ ∨ _))

theorem getProcessCoreTimeData_of_fallsBack {topology : Topology ExactFloat Trace} {pid : Nat}
    (falls : topology.FallsBack pid) : topology.getProcessCoreTimeData pid = .ok none :=
  getProcessCoreTimeData_of_absent falls

/-- The busy time of the node grew by `nodeDelta` between the last two records of the
process. -/
def ProcessNodeDelta (topology : Topology ExactFloat Trace) (nodeDelta pid : Nat) : Prop :=
  ∀ records ∈ topology.procTracker.findRecords pid, ∀ last ∈ records[0]?, ∀ prev ∈ records[1]?,
    last.process.nodeBusyTime - prev.process.nodeBusyTime = nodeDelta

instance (topology : Topology ExactFloat Trace) (nodeDelta pid : Nat) :
    Decidable (topology.ProcessNodeDelta nodeDelta pid) :=
  inferInstanceAs (Decidable (∀ _ ∈ _, ∀ _ ∈ _, ∀ _ ∈ _, _))

/-- The same between the last two records of the core. -/
def CoreNodeDelta (nodeDelta : Nat) (core : CPUCore ExactFloat) : Prop :=
  ∀ samples ∈ lastTwo core.recordBuffer, samples.2.nodeBusy - samples.1.nodeBusy = nodeDelta

instance (nodeDelta : Nat) (core : CPUCore ExactFloat) : Decidable (CoreNodeDelta nodeDelta core) :=
  inferInstanceAs (Decidable (∀ _ ∈ _, _))

theorem percentage_eq (part whole : Nat) :
    (if whole ≠ 0 then Float64.mul (Float64.div (Float64.ofU64 part) (Float64.ofU64 whole))
      (Float64.ofU64 100) else Float64.ofU64 0 : ExactFloat) = .num ((part : ℚ) / whole * 100) := by
  split
  · rename_i nonzero
    have nonzeroRat : (whole : ℚ) ≠ 0 := by exact_mod_cast nonzero
    rw [ExactFloat.ofU64_eq, ExactFloat.ofU64_eq, ExactFloat.div_num nonzeroRat]
    rfl
  · rename_i zero
    have zeroRat : (whole : ℚ) = 0 := by exact_mod_cast not_not.mp zero
    rw [zeroRat, div_zero, zero_mul]
    rfl

theorem fallbackProportion_eq {nodeDelta : Nat} {core : CPUCore ExactFloat}
    (node : CoreNodeDelta nodeDelta core) (part : ℚ) :
    fallbackProportion (.num (part * 100)) core = .num (part * (core.busyDelta / nodeDelta)) := by
  have hundred : (100 : ℚ) ≠ 0 := by norm_num
  unfold fallbackProportion CPUCore.getCoreMetricsDelta CPUCore.busyDelta
  cases records : lastTwo core.recordBuffer with
  | none => simp
  | some pair =>
      have grew := node pair records
      simp only [Option.map_some, grew, percentage_eq]
      change Float64.mul (Float64.div _ (ExactFloat.num 100))
        (Float64.div _ (ExactFloat.num 100)) = _
      rw [ExactFloat.div_num hundred, ExactFloat.div_num hundred, ExactFloat.mul_num,
        mul_div_cancel_right₀ _ hundred, mul_div_cancel_right₀ _ hundred]

/-- Without a percentage of the process, its part of the node's busy time is zero. -/
theorem processPercentage_cases {topology : Topology ExactFloat Trace} {nodeDelta pid : Nat}
    (node : topology.ProcessNodeDelta nodeDelta pid) :
    (topology.procTracker.getProcessCpuTimeDeltaAsPercentage ExactFloat pid = none ∧
      (topology.procTracker.cpuBusyDelta pid : ℚ) / nodeDelta = 0) ∨
    ∃ record, topology.procTracker.getProcessLastRecord pid = some record ∧
      topology.procTracker.getProcessCpuTimeDeltaAsPercentage ExactFloat pid =
        some (.num ((topology.procTracker.cpuBusyDelta pid : ℚ) / nodeDelta * 100)) := by
  unfold ProcessTracker.getProcessCpuTimeDeltaAsPercentage ProcessTracker.cpuBusyDelta
  unfold ProcessTracker.getProcessLastRecord
  rcases found : topology.procTracker.findRecords pid with _ | _ | ⟨last, _ | ⟨prev, older⟩⟩
  · exact Or.inl ⟨rfl, by simp⟩
  · exact Or.inl ⟨rfl, by simp⟩
  · exact Or.inl ⟨rfl, by simp⟩
  · simp only [node _ found last rfl prev rfl]
    rcases Nat.eq_zero_or_pos nodeDelta with rfl | positive
    · exact Or.inl ⟨rfl, by rw [Nat.cast_zero, div_zero]⟩
    · have nonzero : nodeDelta ≠ 0 := Nat.pos_iff_ne_zero.mp positive
      refine Or.inr ⟨last, rfl, ?_⟩
      rw [if_neg nonzero, ← percentage_eq, if_pos nonzero]

/-- A process without core times gets the shares of the fallback. -/
theorem processPower_of_fallsBack {now : Nat} {topology : Topology ExactFloat Trace}
    {powers : List (CPUCore ExactFloat × ℚ)} {pid nodeDelta : Nat}
    (read : topology.HasCorePowers now powers) (falls : topology.FallsBack pid)
    (processNode : topology.ProcessNodeDelta nodeDelta pid)
    (coreNode : ∀ core ∈ topology.getCores, CoreNodeDelta nodeDelta core) :
    topology.processPower now pid =
      .ok (.num (apportioned powers (topology.fallbackShare nodeDelta pid))) := by
  have data := getProcessCoreTimeData_of_fallsBack falls
  have shared := getProcessCoreProportions_of_none data
  rcases processPercentage_cases processNode with ⟨absent, zero⟩ | ⟨record, tracked, present⟩
  · rw [absent] at shared
    have nothing : topology.fallbackShare nodeDelta pid = fun _ => 0 := by
      funext core
      rw [fallbackShare, zero, zero_mul]
    rw [processPower_of_no_proportions data shared, nothing, apportioned_zero]
    rfl
  · rw [present, Option.map_some] at shared
    have shares : topology.getCores.map (fallbackProportion (.num
          ((topology.procTracker.cpuBusyDelta pid : ℚ) / nodeDelta * 100))) =
        topology.getCores.map fun core => .num (topology.fallbackShare nodeDelta pid core) := by
      apply List.map_congr_left
      intro core member
      exact fallbackProportion_eq (coreNode core member) _
    rw [shares] at shared
    exact processPower_of_proportions tracked data shared (attributedResult_exact read _)

end Topology

end ScaphandreFormal.Sensors
