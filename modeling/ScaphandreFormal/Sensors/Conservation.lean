import ScaphandreFormal.Sensors.ProcessPower

/-!
# Conservation of power

The shares by core times add up to at most one on each core, so that the
processes get at most the powers of the cores.  The shares of the fallback add
up to the core's part of the busy time of the node, which is less than one on
every core but an only busy one, and they know nothing of what the core times
already gave away.
-/

namespace ScaphandreFormal.Sensors

open Foundation

variable {Trace : Type}

namespace Topology

/-! ## The sum over processes -/

theorem processesPower_eq {now : Nat} {topology : Topology ExactFloat Trace}
    {powers : List (CPUCore ExactFloat × ℚ)} {pids : List Nat}
    {share : Nat → CPUCore ExactFloat → ℚ}
    (each : ∀ pid ∈ pids,
      topology.processPower now pid = .ok (.num (apportioned powers (share pid)))) :
    topology.processesPower now pids =
      .ok (.num (apportioned powers fun core => (pids.map fun pid => share pid core).sum)) := by
  rw [processesPower, mapM_eq_ok each, ← sum_apportioned]
  exact congrArg Except.ok (ExactFloat.sum_num _ pids)

/-- The cores that have a power are cores of the topology. -/
theorem mem_getCores {now : Nat} {topology : Topology ExactFloat Trace}
    {powers : List (CPUCore ExactFloat × ℚ)} (read : topology.HasCorePowers now powers)
    {source : CPUCore ExactFloat × ℚ} (member : source ∈ powers) :
    source.1 ∈ topology.getCores := by
  have paired : (source.1, ExactFloat.num source.2) ∈ topology.corePowers now := by
    rw [read]
    exact List.mem_map.mpr ⟨source, member, rfl⟩
  cases recorded : topology.getProportionalCoreDiffPowerMicrowatts now with
  | none =>
      rw [corePowers_of_unread recorded] at paired
      cases paired
  | some record =>
      rw [(columns_of_read recorded).2]
      exact List.mem_map.mpr ⟨_, (sortById_perm _ _).mem_iff.mpr paired, rfl⟩

end Topology

/-! ## Attribution by core times -/

namespace ProcessTracker

/-- The core times of the last two records, the previous ones first. -/
def lastCoreTimes (tracker : ProcessTracker Trace) (pid : Nat) :
    Option (List UInt64 × List UInt64) :=
  match tracker.findRecords pid with
  | some (last :: prev :: _) =>
      match prev.process.coreBusyTimes, last.process.coreBusyTimes with
      | some prevCoreTimes, some lastCoreTimes => some (prevCoreTimes, lastCoreTimes)
      | _, _ => none
  | _ => none

/-- The last two records have core times for every core, as many in both and none smaller
than before. -/
def HasCoreTimes (tracker : ProcessTracker Trace) (pid : Nat) : Prop :=
  ∃ times ∈ tracker.lastCoreTimes pid,
    tracker.nbCores ≤ times.2.length ∧ List.Forall₂ (· ≤ ·) times.1 times.2

instance (tracker : ProcessTracker Trace) (pid : Nat) : Decidable (tracker.HasCoreTimes pid) :=
  inferInstanceAs (Decidable (∃ _ ∈ _, _))

/-- The growth of the core time on a CPU over the last two records. -/
def coreTimeGrowth (tracker : ProcessTracker Trace) (pid cpu : Nat) : Nat :=
  match tracker.lastCoreTimes pid with
  | some (previous, last) => (last[cpu]?.getD 0).toNat - (previous[cpu]?.getD 0).toNat
  | none => 0

theorem toNat_zipWith_sub {previous last : List UInt64}
    (monotone : List.Forall₂ (· ≤ ·) previous last) (cpu : Nat) :
    ((previous.zipWith (fun previous current => current - previous) last)[cpu]?.getD 0).toNat =
      (last[cpu]?.getD 0).toNat - (previous[cpu]?.getD 0).toNat := by
  induction monotone generalizing cpu with
  | nil => rfl
  | cons grown rest ih =>
      cases cpu with
      | zero => exact UInt64.toNat_sub_of_le _ _ grown
      | succ cpu => simpa using ih cpu

/-- The tracker returns a delta for every core, and the deltas are the growths. -/
theorem HasCoreTimes.deltas {tracker : ProcessTracker Trace} {pid : Nat}
    (times : tracker.HasCoreTimes pid) :
    ∃ deltas, tracker.getPerCoreCpuTimeDelta pid = some deltas ∧
      tracker.nbCores ≤ deltas.length ∧
      ∀ cpu, tracker.coreTimeDelta pid cpu = tracker.coreTimeGrowth pid cpu := by
  obtain ⟨⟨previous, last⟩, found, long, monotone⟩ := times
  have sameLength : previous.length = last.length := monotone.length_eq
  have timed : tracker.getPerCoreCpuTimeDelta pid =
      some (previous.zipWith (fun previous current => current - previous) last) := by
    unfold lastCoreTimes at found
    unfold getPerCoreCpuTimeDelta
    rcases records : tracker.findRecords pid with _ | _ | ⟨newest, _ | ⟨older, oldest⟩⟩
    · rw [records] at found; cases found
    · rw [records] at found; cases found
    · rw [records] at found; cases found
    · rw [records] at found
      simp only at found ⊢
      split at found
      · rename_i prevCoreTimes lastCoreTimes hasPrev hasLast
        cases found
        simp only [hasPrev, hasLast, if_pos sameLength]
      · cases found
  refine ⟨_, timed, ?_, fun cpu => ?_⟩
  · rw [List.length_zipWith, sameLength, Nat.min_self]
    exact long
  · rw [Topology.coreTimeDelta_eq timed, coreTimeGrowth, found]
    exact toNat_zipWith_sub monotone cpu

end ProcessTracker

/-- Attribution by core times conserves power: the processes get at most the powers of all
cores, and all of it when they account for the whole `CPU_TIME` of each core with power. -/
theorem Topology.ebpf_attribution_conserves (now : Nat) (topology : Topology ExactFloat Trace)
    (pids : List Nat) (powers : List (CPUCore ExactFloat × ℚ))
    (read : topology.HasCorePowers now powers) (nonneg : ∀ source ∈ powers, 0 ≤ source.2)
    (ids : ∀ core ∈ topology.getCores, core.id < topology.procTracker.nbCores)
    (times : ∀ pid ∈ pids, topology.procTracker.HasCoreTimes pid)
    (grew : ∃ cpu, topology.cpuTimeGrowth cpu ≠ 0)
    (within : ∀ core ∈ topology.getCores,
      (pids.map fun pid => topology.procTracker.coreTimeGrowth pid core.id).sum ≤
        topology.cpuTimeGrowth core.id) :
    ∃ total, topology.processesPower now pids = .ok (.num total) ∧
      total ≤ totalWeight powers ∧
      ((∀ source ∈ powers, 0 < source.2 →
          0 < topology.cpuTimeGrowth source.1.id ∧
          (pids.map fun pid => topology.procTracker.coreTimeGrowth pid source.1.id).sum =
            topology.cpuTimeGrowth source.1.id) →
        total = totalWeight powers) := by
  obtain ⟨cpu, grown⟩ := grew
  obtain ⟨diff, differs⟩ := Topology.getCpuTimeDiff_of_growth grown
  have shares : ∀ core, (pids.map fun pid => topology.ebpfShare pid core).sum =
      ((pids.map fun pid => topology.procTracker.coreTimeGrowth pid core.id).sum : Nat) /
        (topology.cpuTimeGrowth core.id : ℚ) := by
    intro core
    rw [← sum_map_div]
    congr 1
    apply List.map_congr_left
    intro pid member
    obtain ⟨deltas, timed, long, growths⟩ := (times pid member).deltas
    rw [Topology.ebpfShare, growths]
  have each : ∀ pid ∈ pids, topology.processPower now pid =
      .ok (.num (apportioned powers (topology.ebpfShare pid))) := by
    intro pid member
    obtain ⟨deltas, timed, long, growths⟩ := (times pid member).deltas
    apply Topology.processPower_of_ebpf read timed differs
    · intro core isCore
      exact Nat.lt_of_lt_of_le (ids core isCore) long
    · intro core isCore
      rw [growths]
      exact (List.le_sum_of_mem (List.mem_map_of_mem member)).trans (within core isCore)
  have once : ∀ source ∈ powers, (pids.map fun pid => topology.ebpfShare pid source.1).sum ≤ 1 := by
    intro source member
    rw [shares]
    apply div_le_one_of_le₀ _ (Nat.cast_nonneg _)
    exact_mod_cast within _ (Topology.mem_getCores read member)
  refine ⟨_, Topology.processesPower_eq each, apportioned_le_totalWeight nonneg once, ?_⟩
  intro whole
  apply (apportioned_eq_totalWeight_iff nonneg once).mpr
  intro source member positive
  obtain ⟨running, accounted⟩ := whole source member positive
  rw [shares, accounted]
  apply div_self
  exact_mod_cast Nat.pos_iff_ne_zero.mp running

/-- A core with two samples: it counted `cycles` cycles and was busy for `busy` of the 10
units of the node. -/
def sampledCore (id cycles busy : Nat) : CPUCore ExactFloat where
  id := id
  recordBuffer :=
    [⟨1, 0, 0, 0, 0, 0, 0, 0, .num 0, .num 0, 0⟩,
      ⟨2, 0, cycles, cycles, busy, 0, 10, 0, .num 0, .num 0, 1⟩]
  bufferMaxKbytes := 1

/-- A socket that used `microjoules` in the last second. -/
def sampledSocket (id microjoules : Nat) (cores : List (CPUCore ExactFloat)) :
    CPUSocket ExactFloat where
  id := id
  domains := []
  recordBuffer :=
    [⟨10 ^ 9, toText 0, .microJoule⟩, ⟨2 * 10 ^ 9, toText microjoules, .microJoule⟩]
  bufferMaxKbytes := 1
  activationIdleBuffer := []
  cpuCores := cores
  raplMaxUj := 0

/-- The two records of a process that was busy for `busy` of the 10 units of the node. -/
def sampledProcess (pid busy : Nat) (previous last : Option (List UInt64)) :
    List (ProcessRecord Unit) :=
  [⟨⟨pid, "/bin/sh".toList, busy, 10, last, 0, 0, 0, 0, 0, 0, ()⟩, 2⟩,
    ⟨⟨pid, "/bin/sh".toList, 0, 0, previous, 0, 0, 0, 0, 0, 0, ()⟩, 1⟩]

def sampledTopology (sockets : List (CPUSocket ExactFloat)) (cpuTime : List Nat)
    (processes : List (List (ProcessRecord Unit))) : Topology ExactFloat Unit where
  sockets := sockets
  procTracker := ⟨processes, cpuTime.length, 5⟩
  recordBuffer := []
  bufferMaxKbytes := 1
  activationIdleBuffer := fun _ => []
  cpuTimeBuffer :=
    [⟨1, cpuTime.map fun _ => toText 0, cpuTime.map fun _ => .numeric⟩,
      ⟨2, cpuTime.map toText, cpuTime.map fun _ => .numeric⟩]

/-- Two sockets with interleaved cores and two processes that account for all the time. -/
def busyTopology : Topology ExactFloat Unit :=
  sampledTopology
    [sampledSocket 0 30 [sampledCore 2 1 0, sampledCore 0 2 0],
      sampledSocket 1 7 [sampledCore 1 3 0]]
    [4, 6, 8]
    [sampledProcess 7 0 (some [10, 0, 0]) (some [13, 2, 8]),
      sampledProcess 8 0 (some [0, 0, 5]) (some [1, 4, 5])]

def busyPowers : List (CPUCore ExactFloat × ℚ) :=
  [(sampledCore 0 2 0, 20), (sampledCore 2 1 0, 10), (sampledCore 1 3 0, 7)]

/-- The 37 microwatts of both sockets are those of the two processes. -/
theorem Topology.ebpf_attribution_conserves_two_sockets :
    busyTopology.processesPower 0 [7, 8] = .ok (.num 37) := by
  obtain ⟨total, shown, -, whole⟩ := Topology.ebpf_attribution_conserves 0 busyTopology [7, 8]
    busyPowers (by decide +kernel) (by decide +kernel) (by decide +kernel) (by decide +kernel)
    ⟨0, by decide +kernel⟩ (by decide +kernel)
  have all : total = 37 := (whole (by decide +kernel)).trans (by decide +kernel)
  rw [shown, all]

/-! ## Attribution with the fallback -/

namespace Topology

/-- What the fallback rests on: the core powers are non-negative numbers, some process falls
back, the core times that are used cover the cores and fit into `CPU_TIME`, and the busy
times of the processes and of the cores each add up to that of the node. -/
structure Accounted (now : Nat) (topology : Topology ExactFloat Trace) (pids : List Nat)
    (powers : List (CPUCore ExactFloat × ℚ)) (nodeDelta : Nat) : Prop where
  read : topology.HasCorePowers now powers
  nonneg : ∀ source ∈ powers, 0 ≤ source.2
  falls : ∃ pid ∈ pids, topology.FallsBack pid
  covered : ∀ pid ∈ pids, ∀ deltas ∈ topology.procTracker.getPerCoreCpuTimeDelta pid,
    ∀ core ∈ topology.getCores, core.id < deltas.length
  within : ∀ core ∈ topology.getCores,
    ((pids.filter fun pid => ¬ topology.FallsBack pid).map fun pid =>
      topology.procTracker.coreTimeDelta pid core.id).sum ≤ topology.cpuTimeGrowth core.id
  processNode : ∀ pid ∈ pids, topology.ProcessNodeDelta nodeDelta pid
  coreNode : ∀ core ∈ topology.getCores, CoreNodeDelta nodeDelta core
  processesBusy : (pids.map topology.procTracker.cpuBusyDelta).sum = nodeDelta
  coresBusy : (topology.getCores.map CPUCore.busyDelta).sum = nodeDelta

/-- The processes get at most the powers of all cores, and all of it when each falls back. -/
def ConservesPower (now : Nat) (topology : Topology ExactFloat Trace) (pids : List Nat)
    (powers : List (CPUCore ExactFloat × ℚ)) : Prop :=
  ∃ total, topology.processesPower now pids = .ok (.num total) ∧
    total ≤ totalWeight powers ∧
    ((∀ pid ∈ pids, topology.FallsBack pid) → total = totalWeight powers)

/-- The part of the node's busy time that the processes in the fallback have. -/
def fallbackPart (topology : Topology ExactFloat Trace) (pids : List Nat) (nodeDelta : Nat) : ℚ :=
  ((pids.filter fun pid => topology.FallsBack pid).map
    topology.procTracker.cpuBusyDelta).sum / nodeDelta

/-- The part of a core's `CPU_TIME` that the other processes have. -/
def ebpfPart (topology : Topology ExactFloat Trace) (pids : List Nat)
    (core : CPUCore ExactFloat) : ℚ :=
  ((pids.filter fun pid => ¬ topology.FallsBack pid).map fun pid =>
    topology.procTracker.coreTimeDelta pid core.id).sum / topology.cpuTimeGrowth core.id

/-- When only the fallback is used, each core with power has all the busy time of the node.
Otherwise the fallback's part of the core powers, taken by the cores' parts of the busy
time, is at most the part that the core times leave. -/
def FallbackFits (topology : Topology ExactFloat Trace) (pids : List Nat)
    (powers : List (CPUCore ExactFloat × ℚ)) (nodeDelta : Nat) : Prop :=
  if ∀ pid ∈ pids, topology.FallsBack pid then
    ∀ source ∈ powers, 0 < source.2 → source.1.busyDelta = nodeDelta ∧ nodeDelta ≠ 0
  else
    topology.fallbackPart pids nodeDelta *
        apportioned powers (fun core => core.busyDelta / nodeDelta) ≤
      apportioned powers fun core => 1 - topology.ebpfPart pids core

/-- The share that the code takes. -/
def share (topology : Topology ExactFloat Trace) (nodeDelta pid : Nat)
    (core : CPUCore ExactFloat) : ℚ :=
  if topology.FallsBack pid then topology.fallbackShare nodeDelta pid core
  else topology.ebpfShare pid core

/-- The shares of all processes on one core. -/
theorem sum_share (topology : Topology ExactFloat Trace) (pids : List Nat) (nodeDelta : Nat)
    (core : CPUCore ExactFloat) :
    (pids.map fun pid => topology.share nodeDelta pid core).sum =
      topology.fallbackPart pids nodeDelta * (core.busyDelta / nodeDelta) +
        topology.ebpfPart pids core := by
  unfold share
  rw [List.sum_map_ite, fallbackPart, ebpfPart, ← sum_map_div, ← sum_map_div,
    ← List.sum_map_mul_right]
  rfl

namespace Accounted

variable {now : Nat} {topology : Topology ExactFloat Trace} {pids : List Nat}
  {powers : List (CPUCore ExactFloat × ℚ)} {nodeDelta : Nat}

theorem processPower_eq (accounted : topology.Accounted now pids powers nodeDelta) {pid : Nat}
    (member : pid ∈ pids) :
    topology.processPower now pid =
      .ok (.num (apportioned powers (topology.share nodeDelta pid))) := by
  unfold share
  by_cases falls : topology.FallsBack pid
  · simp only [if_pos falls]
    exact processPower_of_fallsBack accounted.read falls (accounted.processNode pid member)
      accounted.coreNode
  · simp only [if_neg falls]
    obtain ⟨timed, differs⟩ := not_or.mp falls
    obtain ⟨deltas, timed⟩ := Option.ne_none_iff_exists'.mp timed
    obtain ⟨diff, differs⟩ := Option.ne_none_iff_exists'.mp differs
    apply processPower_of_ebpf accounted.read timed differs (accounted.covered pid member _ timed)
    intro core isCore
    have counted : pid ∈ pids.filter fun pid => ¬ topology.FallsBack pid :=
      List.mem_filter.mpr ⟨member, decide_eq_true falls⟩
    exact (List.le_sum_of_mem (List.mem_map_of_mem counted)).trans (accounted.within core isCore)

/-- The processes get the sum of both parts. -/
theorem processesPower_eq_parts (accounted : topology.Accounted now pids powers nodeDelta) :
    topology.processesPower now pids =
      .ok (.num (topology.fallbackPart pids nodeDelta *
          apportioned powers (fun core => core.busyDelta / nodeDelta) +
        apportioned powers (topology.ebpfPart pids))) := by
  rw [processesPower_eq fun pid member => accounted.processPower_eq member]
  simp only [sum_share, apportioned_add, apportioned_mul_left]

theorem wholePart_iff (part whole : Nat) :
    (whole : ℚ) / whole * (part / whole) = 1 ↔ part = whole ∧ whole ≠ 0 := by
  rcases Nat.eq_zero_or_pos whole with rfl | positive
  · simp
  · have nonzero : (whole : ℚ) ≠ 0 := by exact_mod_cast Nat.pos_iff_ne_zero.mp positive
    rw [div_self nonzero, one_mul, div_eq_one_iff_eq nonzero, Nat.cast_inj]
    exact ⟨fun same => ⟨same, Nat.pos_iff_ne_zero.mp positive⟩, fun both => both.1⟩

/-- With the fallback alone, each core gives its part of the busy time. -/
theorem processesPower_of_all_fallBack (accounted : topology.Accounted now pids powers nodeDelta)
    (all : ∀ pid ∈ pids, topology.FallsBack pid) :
    topology.processesPower now pids = .ok (.num (apportioned powers fun core =>
      (nodeDelta : ℚ) / nodeDelta * (core.busyDelta / nodeDelta))) := by
  have inFallback : (pids.filter fun pid => topology.FallsBack pid) = pids :=
    List.filter_eq_self.mpr fun pid member => decide_eq_true (all pid member)
  have others : (pids.filter fun pid => ¬ topology.FallsBack pid) = [] :=
    List.filter_eq_nil_iff.mpr fun pid member => by simpa using all pid member
  have noPart : topology.ebpfPart pids = fun _ => 0 := by
    funext core
    rw [ebpfPart, others]
    exact zero_div _
  rw [accounted.processesPower_eq_parts, noPart, apportioned_zero, add_zero, fallbackPart,
    inFallback, accounted.processesBusy, apportioned_mul_left]

theorem busyPart_le_one (accounted : topology.Accounted now pids powers nodeDelta)
    {source : CPUCore ExactFloat × ℚ} (member : source ∈ powers) :
    (nodeDelta : ℚ) / nodeDelta * (source.1.busyDelta / nodeDelta) ≤ 1 := by
  have part : source.1.busyDelta ≤ nodeDelta := by
    rw [← accounted.coresBusy]
    exact List.le_sum_of_mem (List.mem_map_of_mem (mem_getCores accounted.read member))
  apply mul_le_one₀ (div_self_le_one _) (by positivity)
  exact div_le_one_of_le₀ (by exact_mod_cast part) (Nat.cast_nonneg _)

/-- The fallback conserves power exactly when it fits. -/
theorem conservesPower_iff_fallbackFits (accounted : topology.Accounted now pids powers nodeDelta) :
    topology.ConservesPower now pids powers ↔ topology.FallbackFits pids powers nodeDelta := by
  unfold ConservesPower FallbackFits
  split
  · rename_i all
    have whole_iff : apportioned powers (fun core =>
          (nodeDelta : ℚ) / nodeDelta * (core.busyDelta / nodeDelta)) = totalWeight powers ↔
        ∀ source ∈ powers, 0 < source.2 → source.1.busyDelta = nodeDelta ∧ nodeDelta ≠ 0 := by
      simp only [← wholePart_iff]
      exact apportioned_eq_totalWeight_iff accounted.nonneg
        fun _ member => accounted.busyPart_le_one member
    rw [accounted.processesPower_of_all_fallBack all, ← whole_iff]
    constructor
    · rintro ⟨total, shown, -, whole⟩
      cases shown
      exact whole all
    · intro whole
      exact ⟨_, rfl, whole.le, fun _ => whole⟩
  · rename_i mixed
    rw [accounted.processesPower_eq_parts, apportioned_one_sub, le_sub_iff_add_le]
    constructor
    · rintro ⟨total, shown, most, -⟩
      cases shown
      exact most
    · intro most
      exact ⟨_, rfl, most, fun all => absurd all mixed⟩

end Accounted

/-- Two cores of one socket of 20 microwatts, each with half of the busy time. -/
def twoCores (cycles : Nat) (processes : List (List (ProcessRecord Unit))) :
    Topology ExactFloat Unit :=
  sampledTopology [sampledSocket 0 20 [sampledCore 0 cycles 5, sampledCore 1 (10 - cycles) 5]]
    [10, 10] processes

def twoCorePowers (cycles : Nat) : List (CPUCore ExactFloat × ℚ) :=
  [(sampledCore 0 cycles 5, 2 * cycles), (sampledCore 1 (10 - cycles) 5, 20 - 2 * cycles)]

/-- One process with half of each core by its core times, and one in the fallback with the
other half of the busy time. -/
theorem conservesPower_iff_fallbackFits_mixed :
    (twoCores 5 [sampledProcess 7 5 (some [0, 0]) (some [5, 5]), sampledProcess 8 5 none none]
      ).ConservesPower 0 [7, 8] (twoCorePowers 5) := by
  have accounted : (twoCores 5 [sampledProcess 7 5 (some [0, 0]) (some [5, 5]),
      sampledProcess 8 5 none none]).Accounted 0 [7, 8] (twoCorePowers 5) 10 := by
    constructor <;> decide +kernel
  apply accounted.conservesPower_iff_fallbackFits.mpr
  unfold FallbackFits
  decide +kernel

/-- A process in the fallback that is all of the busy time gets half of the power of two
cores.  Beside a process that takes the core with most of the power by its core times, one
in the fallback brings the sum above the power of the cores. -/
theorem not_conservesPower_of_two_busy_cores :
    ((twoCores 5 [sampledProcess 7 10 none none]).Accounted 0 [7] (twoCorePowers 5) 10 ∧
      ¬ (twoCores 5 [sampledProcess 7 10 none none]).ConservesPower 0 [7] (twoCorePowers 5)) ∧
    ((twoCores 9 [sampledProcess 7 5 (some [0, 0]) (some [10, 0]), sampledProcess 8 5 none none]
        ).Accounted 0 [7, 8] (twoCorePowers 9) 10 ∧
      ¬ (twoCores 9 [sampledProcess 7 5 (some [0, 0]) (some [10, 0]),
        sampledProcess 8 5 none none]).ConservesPower 0 [7, 8] (twoCorePowers 9)) := by
  refine ⟨⟨by constructor <;> decide +kernel, ?_⟩, ⟨by constructor <;> decide +kernel, ?_⟩⟩
  · rintro ⟨total, shown, -, whole⟩
    have half : (twoCores 5 [sampledProcess 7 10 none none]).processesPower 0 [7] =
        .ok (.num 10) := by
      decide +kernel
    rw [half] at shown
    cases shown
    exact absurd (whole (by decide +kernel)) (by decide +kernel)
  · rintro ⟨total, shown, most, -⟩
    have excess : (twoCores 9 [sampledProcess 7 5 (some [0, 0]) (some [10, 0]),
        sampledProcess 8 5 none none]).processesPower 0 [7, 8] = .ok (.num 23) := by
      decide +kernel
    rw [excess] at shown
    cases shown
    exact absurd most (by decide +kernel)

end Topology

end ScaphandreFormal.Sensors
