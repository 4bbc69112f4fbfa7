import ScaphandreFormal.Sensors.Conservation
import ScaphandreFormal.Sensors.PidReuse

/-!
# Reading the time maps while they grow

A refresh reads `PID_TIMES` process by process and `CPU_TIME` CPU by CPU, and
the kernel keeps crediting in between.  What is credited to a process after its
own read but before the read of the CPU is in the one value and not in the
other.  Between two refreshes the processes gain on a CPU exactly what the CPU
gains, plus such late credits of the first refresh, less those of the second.
-/

namespace ScaphandreFormal.Sensors

open Foundation

/-! ## Credits and reads -/

/-- What happens while a refresh reads the maps, one thing after the other. -/
inductive SampleStep where
  | credit (pid cpu delta : Nat)
  | readProcess (pid : Nat)
  | readCpu (cpu : Nat)
  deriving DecidableEq, Repr

/-- The two maps, and the values last read of each process and of each CPU. -/
structure Sampling where
  pidTimes : Nat → Nat → Nat
  cpuTime : Nat → Nat
  processReads : Nat → Nat → Nat
  cpuReads : Nat → Nat

namespace SampleStep

def isRead : SampleStep → Bool
  | .credit _ _ _ => false
  | _ => true

/-- What the step adds to `PID_TIMES[pid][cpu]`. -/
def gain (pid cpu : Nat) : SampleStep → Nat
  | .credit owner core delta => if pid = owner ∧ cpu = core then delta else 0
  | _ => 0

end SampleStep

/-- What the steps add to `PID_TIMES[pid][cpu]`. -/
def credited (pid cpu : Nat) (steps : List SampleStep) : Nat :=
  (steps.map (SampleStep.gain pid cpu)).sum

theorem credited_append (pid cpu : Nat) (first second : List SampleStep) :
    credited pid cpu (first ++ second) = credited pid cpu first + credited pid cpu second := by
  simp [credited]

/-- A summand that one process alone has is the sum. -/
theorem sum_map_owner {pids : List Nat} (distinct : pids.Nodup) {owner : Nat}
    (member : owner ∈ pids) (delta : Nat) :
    (pids.map fun pid => if pid = owner then delta else 0).sum = delta := by
  induction pids with
  | nil => exact absurd member List.not_mem_nil
  | cons pid rest ih =>
      obtain ⟨fresh, distinctRest⟩ := List.nodup_cons.mp distinct
      rw [List.map_cons, List.sum_cons]
      rcases List.mem_cons.mp member with rfl | later
      · have others : rest.map (fun pid => if pid = owner then delta else 0) =
            rest.map fun _ => 0 := by
          apply List.map_congr_left
          intro other isOther
          rw [if_neg]
          rintro rfl
          exact fresh isOther
        simp [others]
      · rw [ih distinctRest later, if_neg, Nat.zero_add]
        rintro rfl
        exact fresh later

namespace Sampling

/-- A credit adds the same time to both maps; a read copies one value, or the values of one
process, as they are. -/
def step (sampling : Sampling) : SampleStep → Sampling
  | .credit pid cpu delta =>
      { sampling with
        pidTimes := fun other core =>
          if other = pid ∧ core = cpu then sampling.pidTimes other core + delta
          else sampling.pidTimes other core
        cpuTime := fun core =>
          if core = cpu then sampling.cpuTime core + delta else sampling.cpuTime core }
  | .readProcess pid =>
      { sampling with
        processReads := fun other =>
          if other = pid then sampling.pidTimes other else sampling.processReads other }
  | .readCpu cpu =>
      { sampling with
        cpuReads := fun core =>
          if core = cpu then sampling.cpuTime core else sampling.cpuReads core }

theorem pidTimes_step (sampling : Sampling) (event : SampleStep) (pid cpu : Nat) :
    (sampling.step event).pidTimes pid cpu = sampling.pidTimes pid cpu + event.gain pid cpu := by
  cases event with
  | credit owner core delta =>
      simp only [step, SampleStep.gain]
      split <;> rfl
  | readProcess other => rfl
  | readCpu core => rfl

theorem pidTimes_run (sampling : Sampling) (steps : List SampleStep) (pid cpu : Nat) :
    (run step sampling steps).pidTimes pid cpu =
      sampling.pidTimes pid cpu + credited pid cpu steps := by
  induction steps generalizing sampling with
  | nil => rfl
  | cons event rest ih =>
      rw [run_cons, ih, pidTimes_step, credited, credited, List.map_cons, List.sum_cons]
      omega

/-- The sum over the processes of what one step adds is what it adds to the CPU. -/
theorem cpuTime_step {pids : List Nat} (distinct : pids.Nodup) (sampling : Sampling)
    {event : SampleStep}
    (known : ∀ pid cpu delta, event = .credit pid cpu delta → pid ∈ pids) (cpu : Nat) :
    (sampling.step event).cpuTime cpu =
      sampling.cpuTime cpu + (pids.map fun pid => event.gain pid cpu).sum := by
  cases event with
  | credit owner core delta =>
      simp only [step, SampleStep.gain]
      by_cases here : cpu = core
      · have member := known owner core delta rfl
        simp only [here, and_true, if_true, sum_map_owner distinct member]
      · simp [here]
  | readProcess other => simp [step, SampleStep.gain]
  | readCpu core => simp [step, SampleStep.gain]

theorem cpuTime_run {pids : List Nat} (distinct : pids.Nodup) (sampling : Sampling)
    (steps : List SampleStep)
    (known : ∀ pid cpu delta, .credit pid cpu delta ∈ steps → pid ∈ pids) (cpu : Nat) :
    (run step sampling steps).cpuTime cpu =
      sampling.cpuTime cpu + (pids.map fun pid => credited pid cpu steps).sum := by
  induction steps generalizing sampling with
  | nil => simp [credited]
  | cons event rest ih =>
      have here := cpuTime_step distinct sampling
        (fun pid cpu delta same => known pid cpu delta (same ▸ List.mem_cons_self)) cpu
      have later := ih (sampling.step event)
        (fun pid cpu delta member => known pid cpu delta (List.mem_cons_of_mem _ member))
      have parts : (pids.map fun pid => credited pid cpu (event :: rest)).sum =
          (pids.map fun pid => event.gain pid cpu).sum +
            (pids.map fun pid => credited pid cpu rest).sum := by
        rw [← List.sum_map_add]
        rfl
      rw [run_cons, later, here, parts]
      omega

/-! ## What is read -/

theorem processReads_run_of_not_mem (sampling : Sampling) {steps : List SampleStep} {pid : Nat}
    (unread : .readProcess pid ∉ steps) :
    (run step sampling steps).processReads pid = sampling.processReads pid := by
  refine frame_run (fun reached : Sampling => reached.processReads pid) ?_
  intro reached event isStep
  cases event with
  | credit owner core delta => rfl
  | readCpu core => rfl
  | readProcess other =>
      have foreign : pid ≠ other := fun same => unread (same ▸ isStep)
      simp only [step, if_neg foreign]

theorem cpuReads_run_of_not_mem (sampling : Sampling) {steps : List SampleStep} {cpu : Nat}
    (unread : .readCpu cpu ∉ steps) :
    (run step sampling steps).cpuReads cpu = sampling.cpuReads cpu := by
  refine frame_run (fun reached : Sampling => reached.cpuReads cpu) ?_
  intro reached event isStep
  cases event with
  | credit owner core delta => rfl
  | readProcess other => rfl
  | readCpu other =>
      have foreign : cpu ≠ other := fun same => unread (same ▸ isStep)
      simp only [step, if_neg foreign]

/-- A process that is read once is read as it stands then. -/
theorem processReads_run (sampling : Sampling) {before after : List SampleStep} {pid : Nat}
    (unread : .readProcess pid ∉ after) (cpu : Nat) :
    (run step sampling (before ++ .readProcess pid :: after)).processReads pid cpu =
      sampling.pidTimes pid cpu + credited pid cpu before := by
  rw [run_append, run_cons, processReads_run_of_not_mem _ unread]
  simp only [step, if_true]
  exact pidTimes_run sampling before pid cpu

theorem cpuReads_run {pids : List Nat} (distinct : pids.Nodup) (sampling : Sampling)
    {before after : List SampleStep} {cpu : Nat} (unread : .readCpu cpu ∉ after)
    (known : ∀ pid cpu delta, .credit pid cpu delta ∈ before → pid ∈ pids) :
    (run step sampling (before ++ .readCpu cpu :: after)).cpuReads cpu =
      sampling.cpuTime cpu + (pids.map fun pid => credited pid cpu before).sum := by
  rw [run_append, run_cons, cpuReads_run_of_not_mem _ unread]
  simp only [step, if_true]
  exact cpuTime_run distinct sampling before known cpu

end Sampling

/-! ## The reads of one refresh -/

/-- What happens during a refresh of these processes and CPUs: every process is read once, in
the order of the list, then every CPU, and credits to these processes fall anywhere. -/
structure Schedule (pids : List Nat) (nbCores : Nat) where
  steps : List SampleStep
  reads : steps.filter SampleStep.isRead =
    pids.map SampleStep.readProcess ++ (List.range nbCores).map SampleStep.readCpu
  credits : ∀ pid cpu delta, SampleStep.credit pid cpu delta ∈ steps → pid ∈ pids

namespace Schedule

variable {pids : List Nat} {nbCores : Nat}

/-- The steps before the CPU is read. -/
def untilCpu (schedule : Schedule pids nbCores) (cpu : Nat) : List SampleStep :=
  schedule.steps.takeWhile (· ≠ .readCpu cpu)

/-- The time credited to the processes on the CPU between their own reads and the read of the
CPU. -/
def late (schedule : Schedule pids nbCores) (cpu : Nat) : Nat :=
  (pids.map fun pid =>
    credited pid cpu ((schedule.untilCpu cpu).dropWhile (· ≠ .readProcess pid))).sum

/-- What is filtered up to a kept element is kept of what comes up to it. -/
theorem takeWhile_filter {Item : Type} {keep passes : Item → Bool}
    (stops : ∀ item, passes item = false → keep item = true) (items : List Item) :
    (items.filter keep).takeWhile passes = (items.takeWhile passes).filter keep := by
  induction items with
  | nil => rfl
  | cons item rest ih =>
      rw [List.filter_cons, List.takeWhile_cons]
      cases goes : passes item with
      | true =>
          cases kept : keep item with
          | true => simp [goes, kept, ih]
          | false => simp [kept, ih]
      | false => simp [stops item goes, goes]

theorem takeWhile_ne_append {Item : Type} [DecidableEq Item] {item : Item} {before : List Item}
    (fresh : item ∉ before) (after : List Item) :
    (before ++ item :: after).takeWhile (· ≠ item) = before := by
  have passes : ∀ other ∈ before, decide (other ≠ item) = true := by
    intro other member
    exact decide_eq_true (fun same => fresh (same ▸ member))
  rw [List.takeWhile_append_of_pos passes]
  simp

/-- Each read happens once. -/
theorem split_at_read (schedule : Schedule pids nbCores) (distinct : pids.Nodup)
    {event : SampleStep} (isRead : event.isRead = true) (member : event ∈ schedule.steps) :
    ∃ after, schedule.steps = schedule.steps.takeWhile (· ≠ event) ++ event :: after ∧
      event ∉ after := by
  obtain ⟨before, after, split, fresh⟩ := List.eq_append_cons_of_mem member
  have reads : (schedule.steps.filter SampleStep.isRead).Nodup := by
    rw [schedule.reads, List.nodup_append]
    refine ⟨distinct.map fun _ _ same => SampleStep.readProcess.inj same,
      List.nodup_range.map fun _ _ same => SampleStep.readCpu.inj same, ?_⟩
    intro first isFirst second isSecond same
    obtain ⟨pid, _, rfl⟩ := List.mem_map.mp isFirst
    obtain ⟨cpu, _, rfl⟩ := List.mem_map.mp isSecond
    cases same
  refine ⟨after, ?_, ?_⟩
  · rw [split, takeWhile_ne_append fresh]
  · intro again
    rw [split, List.filter_append, List.filter_cons, if_pos isRead] at reads
    exact (List.nodup_cons.mp (List.nodup_append.mp reads).2.1).1
      (List.mem_filter.mpr ⟨again, isRead⟩)

theorem readProcess_mem_untilCpu (schedule : Schedule pids nbCores) {pid : Nat}
    (member : pid ∈ pids) (cpu : Nat) : .readProcess pid ∈ schedule.untilCpu cpu := by
  have stops : ∀ event : SampleStep, decide (event ≠ .readCpu cpu) = false →
      event.isRead = true := by
    intro event same
    rw [not_not.mp (of_decide_eq_false same)]
    rfl
  have passes : ∀ event ∈ pids.map SampleStep.readProcess,
      decide (event ≠ .readCpu cpu) = true := by
    intro event isRead
    obtain ⟨other, _, rfl⟩ := List.mem_map.mp isRead
    exact decide_eq_true (fun same => by cases same)
  have filtered := takeWhile_filter stops schedule.steps
  rw [schedule.reads, List.takeWhile_append_of_pos passes] at filtered
  have listed : .readProcess pid ∈ (schedule.untilCpu cpu).filter SampleStep.isRead := by
    rw [untilCpu, ← filtered]
    exact List.mem_append_left _ (List.mem_map_of_mem member)
  exact (List.mem_filter.mp listed).1

/-- A process is read as the credits before its own read left it. -/
theorem processReads_eq (schedule : Schedule pids nbCores) (distinct : pids.Nodup)
    (sampling : Sampling) {pid : Nat} (member : pid ∈ pids) (cpu core : Nat) :
    (run Sampling.step sampling schedule.steps).processReads pid core =
      sampling.pidTimes pid core +
        credited pid core ((schedule.untilCpu cpu).takeWhile (· ≠ .readProcess pid)) := by
  have early := schedule.readProcess_mem_untilCpu member cpu
  obtain ⟨before, between, split, fresh⟩ := List.eq_append_cons_of_mem early
  obtain ⟨rest, whole⟩ := List.takeWhile_prefix (· ≠ .readCpu cpu) (l := schedule.steps)
  have steps : schedule.steps = before ++ .readProcess pid :: (between ++ rest) := by
    rw [← whole]
    change schedule.untilCpu cpu ++ rest = _
    rw [split, List.append_assoc, List.cons_append]
  obtain ⟨after, single, unread⟩ := schedule.split_at_read distinct rfl
    (show .readProcess pid ∈ schedule.steps by rw [steps]; simp)
  have same : between ++ rest = after := by
    have compared := single
    rw [steps, takeWhile_ne_append fresh] at compared
    simpa using compared
  rw [steps, Sampling.processReads_run sampling (same ▸ unread), split,
    takeWhile_ne_append fresh]

/-- A CPU is read with all credits before its read. -/
theorem cpuReads_untilCpu (schedule : Schedule pids nbCores) (distinct : pids.Nodup)
    (sampling : Sampling) {cpu : Nat} (inside : cpu < nbCores) :
    (run Sampling.step sampling schedule.steps).cpuReads cpu =
      sampling.cpuTime cpu +
        (pids.map fun pid => credited pid cpu (schedule.untilCpu cpu)).sum := by
  have member : .readCpu cpu ∈ schedule.steps := by
    have listed : .readCpu cpu ∈ schedule.steps.filter SampleStep.isRead := by
      rw [schedule.reads]
      exact List.mem_append_right _ (List.mem_map_of_mem (List.mem_range.mpr inside))
    exact (List.mem_filter.mp listed).1
  obtain ⟨after, steps, unread⟩ := schedule.split_at_read distinct rfl member
  rw [steps]
  refine Sampling.cpuReads_run distinct sampling unread ?_
  intro pid core delta credit
  exact schedule.credits pid core delta ((List.takeWhile_prefix _).subset credit)

/-- The credits before the read of a CPU are those of each process before the process was read
and the late ones. -/
theorem cpuReads_eq (schedule : Schedule pids nbCores) (distinct : pids.Nodup)
    (sampling : Sampling) {cpu : Nat} (inside : cpu < nbCores) :
    (run Sampling.step sampling schedule.steps).cpuReads cpu +
        (pids.map fun pid => sampling.pidTimes pid cpu).sum =
      sampling.cpuTime cpu +
        (pids.map fun pid =>
          (run Sampling.step sampling schedule.steps).processReads pid cpu).sum +
        schedule.late cpu := by
  have processes : (pids.map fun pid =>
      (run Sampling.step sampling schedule.steps).processReads pid cpu).sum =
      (pids.map fun pid => sampling.pidTimes pid cpu).sum +
        (pids.map fun pid => credited pid cpu
          ((schedule.untilCpu cpu).takeWhile (· ≠ .readProcess pid))).sum := by
    rw [← List.sum_map_add]
    congr 1
    apply List.map_congr_left
    intro pid isPid
    exact schedule.processReads_eq distinct sampling isPid cpu cpu
  have split : (pids.map fun pid => credited pid cpu (schedule.untilCpu cpu)).sum =
      (pids.map fun pid => credited pid cpu
        ((schedule.untilCpu cpu).takeWhile (· ≠ .readProcess pid))).sum +
        schedule.late cpu := by
    rw [late, ← List.sum_map_add]
    congr 1
    apply List.map_congr_left
    intro pid _
    rw [← credited_append, List.takeWhile_append_dropWhile]
  rw [schedule.cpuReads_untilCpu distinct sampling inside, processes, split]
  omega

end Schedule

/-! ## Two refreshes -/

namespace Sampling

/-- How the maps and the reads after a refresh stand to the maps before it. -/
structure Sampled (pids : List Nat) (nbCores : Nat) (late : Nat → Nat) (before after : Sampling) :
    Prop where
  processes : ∀ pid ∈ pids, ∀ cpu, before.pidTimes pid cpu ≤ after.processReads pid cpu ∧
    after.processReads pid cpu ≤ after.pidTimes pid cpu
  cpus : ∀ cpu < nbCores, before.cpuTime cpu ≤ after.cpuReads cpu ∧
    after.cpuReads cpu ≤ after.cpuTime cpu
  reads : ∀ cpu < nbCores,
    after.cpuReads cpu + (pids.map fun pid => before.pidTimes pid cpu).sum =
      before.cpuTime cpu + (pids.map fun pid => after.processReads pid cpu).sum + late cpu
  credits : ∀ cpu,
    after.cpuTime cpu + (pids.map fun pid => before.pidTimes pid cpu).sum =
      before.cpuTime cpu + (pids.map fun pid => after.pidTimes pid cpu).sum

theorem Sampled.perm {order pids : List Nat} {nbCores : Nat} {late : Nat → Nat}
    {before after : Sampling} (sampled : Sampled order nbCores late before after)
    (listed : order.Perm pids) : Sampled pids nbCores late before after := by
  have sums : ∀ value : Nat → Nat, (order.map value).sum = (pids.map value).sum :=
    fun value => (listed.map value).sum_eq
  refine ⟨fun pid member => sampled.processes pid (listed.mem_iff.mpr member), sampled.cpus, ?_, ?_⟩
  · intro cpu inside
    have reads := sampled.reads cpu inside
    rw [sums, sums] at reads
    exact reads
  · intro cpu
    have credits := sampled.credits cpu
    rw [sums, sums] at credits
    exact credits

/-- The last reads lie behind the maps, and the CPUs were read ahead of the processes by the
late credits. -/
structure Behind (pids : List Nat) (nbCores : Nat) (late : Nat → Nat) (sampling : Sampling) :
    Prop where
  processes : ∀ pid ∈ pids, ∀ cpu, sampling.processReads pid cpu ≤ sampling.pidTimes pid cpu
  cpus : ∀ cpu < nbCores, sampling.cpuReads cpu ≤ sampling.cpuTime cpu
  ahead : ∀ cpu < nbCores,
    sampling.cpuReads cpu + (pids.map fun pid => sampling.pidTimes pid cpu).sum =
      sampling.cpuTime cpu + (pids.map fun pid => sampling.processReads pid cpu).sum + late cpu

theorem Sampled.behind {pids : List Nat} {nbCores : Nat} {late : Nat → Nat}
    {before after : Sampling} (sampled : Sampled pids nbCores late before after) :
    Behind pids nbCores late after where
  processes := fun pid member cpu => (sampled.processes pid member cpu).2
  cpus := fun cpu inside => (sampled.cpus cpu inside).2
  ahead := by
    intro cpu inside
    have reads := sampled.reads cpu inside
    have credits := sampled.credits cpu
    omega

theorem sum_map_sub {pids : List Nat} {before after : Nat → Nat}
    (grown : ∀ pid ∈ pids, before pid ≤ after pid) :
    (pids.map fun pid => after pid - before pid).sum + (pids.map before).sum =
      (pids.map after).sum := by
  rw [← List.sum_map_add]
  congr 1
  apply List.map_congr_left
  intro pid member
  exact Nat.sub_add_cancel (grown pid member)

/-- Between two refreshes the processes gain at most what the CPU gains just when the second
refresh has no less late time than the first. -/
theorem Behind.growth_le_iff {pids : List Nat} {nbCores : Nat} {earlier late : Nat → Nat}
    {before after : Sampling} (behind : Behind pids nbCores earlier before)
    (sampled : Sampled pids nbCores late before after) {cpu : Nat} (inside : cpu < nbCores) :
    (pids.map fun pid => after.processReads pid cpu - before.processReads pid cpu).sum ≤
        after.cpuReads cpu - before.cpuReads cpu ↔
      earlier cpu ≤ late cpu := by
  have processes := sum_map_sub fun pid member =>
    (behind.processes pid member cpu).trans (sampled.processes pid member cpu).1
  have cpus := (behind.cpus cpu inside).trans (sampled.cpus cpu inside).1
  have first := behind.ahead cpu inside
  have second := sampled.reads cpu inside
  omega

end Sampling

theorem credited_le_of_begins (pid cpu : Nat) {first steps : List SampleStep}
    (begins : first <+: steps) : credited pid cpu first ≤ credited pid cpu steps := by
  obtain ⟨rest, rfl⟩ := begins
  rw [credited_append]
  exact Nat.le_add_right _ _

/-- A refresh samples the maps as its schedule says. -/
theorem Schedule.sampled {pids : List Nat} {nbCores : Nat} (schedule : Schedule pids nbCores)
    (distinct : pids.Nodup) (sampling : Sampling) :
    Sampling.Sampled pids nbCores schedule.late sampling
      (run Sampling.step sampling schedule.steps) where
  processes := by
    intro pid member cpu
    have early : (schedule.untilCpu cpu).takeWhile (· ≠ .readProcess pid) <+: schedule.steps :=
      (List.takeWhile_prefix _).trans (List.takeWhile_prefix _)
    have before := credited_le_of_begins pid cpu early
    rw [schedule.processReads_eq distinct sampling member cpu, Sampling.pidTimes_run]
    omega
  cpus := by
    intro cpu inside
    have before : (pids.map fun pid => credited pid cpu (schedule.untilCpu cpu)).sum ≤
        (pids.map fun pid => credited pid cpu schedule.steps).sum :=
      List.sum_le_sum fun pid _ => credited_le_of_begins pid cpu (List.takeWhile_prefix _)
    rw [schedule.cpuReads_untilCpu distinct sampling inside,
      Sampling.cpuTime_run distinct sampling schedule.steps schedule.credits]
    omega
  reads := fun cpu inside => schedule.cpuReads_eq distinct sampling inside
  credits := by
    intro cpu
    have total : (pids.map fun pid =>
        (run Sampling.step sampling schedule.steps).pidTimes pid cpu).sum =
        (pids.map fun pid => sampling.pidTimes pid cpu).sum +
          (pids.map fun pid => credited pid cpu schedule.steps).sum := by
      rw [← List.sum_map_add]
      congr 1
      apply List.map_congr_left
      intro pid _
      exact Sampling.pidTimes_run sampling schedule.steps pid cpu
    rw [Sampling.cpuTime_run distinct sampling schedule.steps schedule.credits, total]
    omega

end ScaphandreFormal.Sensors
