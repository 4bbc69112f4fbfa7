import ScaphandreFormal.Ebpf.Programs
import ScaphandreFormal.Foundation.Trace

/-!
# The two time maps stay in step

Every accounting program credits at most one time difference, to one process
and to the CPU it runs on, and may afterwards drop a dead process.  `creditOf`
names that credit and the two inversion lemmas say that nothing else happens to
`PID_TIMES` and `CPU_TIME`.  Between any two points of a run the process times
of a CPU therefore never grow by more than its total.
-/

namespace ScaphandreFormal.Ebpf

open Foundation

/-- The process and the time difference that an event credits on its CPU, if any. -/
def creditOf (maps : Maps) : Event → Option (Nat × UInt64)
  | .schedSwitch now cpu (some prev) (some _) =>
      if prev.tgid ≠ 0 ∧ prev.pid ≠ 0 then
        (maps.pidLast.get? prev.tgid cpu).map fun last => (prev.tgid, now - last)
      else none
  | .schedSwitch _ _ _ _ => none
  | .sampleTick now cpu current =>
      if current.tgid = 0 ∨ current.pid = 0 then none
      else (maps.pidLast.get? current.tgid cpu).map fun last => (current.tgid, now - last)
  | .processExit now cpu tgid (some args) =>
      if tgid ≠ 0 ∧ args.pid ≠ 0 then
        (maps.pidLast.get? tgid cpu).map fun last => (tgid, now - last)
      else none
  | .processExit _ _ _ none => none

/-- The process whose entry an event deletes from `PID_TIMES`, if any. -/
def reapedBy : Event → Option Nat
  | .processExit _ _ tgid (some args) => if args.groupDead ≠ 0 then some tgid else none
  | _ => none

/-- The total of the event's CPU stays below `2 ^ 64`. -/
def CounterFits (maps : Maps) (event : Event) : Prop :=
  ∀ credit, creditOf maps event = some credit →
    (maps.cpuTime.values event.cpu).toNat + credit.2.toNat < 2 ^ 64

instance (maps : Maps) (event : Event) : Decidable (CounterFits maps event) :=
  match credited : creditOf maps event with
  | none => isTrue fun credit found => by rw [credited] at found; cases found
  | some credit =>
      if fits : (maps.cpuTime.values event.cpu).toNat + credit.2.toNat < 2 ^ 64 then
        isTrue fun other found => by
          rw [credited] at found
          cases found
          exact fits
      else isFalse fun all => fits (all credit credited)

@[simp]
theorem Maps.creditPid_cpuTime (maps : Maps) (tgid cpu : Nat) (delta : UInt64) :
    (maps.creditPid tgid cpu delta).cpuTime = maps.cpuTime := by
  unfold Maps.creditPid
  split <;> rfl

@[simp]
theorem Maps.creditPid_pidLast (maps : Maps) (tgid cpu : Nat) (delta : UInt64) :
    (maps.creditPid tgid cpu delta).pidLast = maps.pidLast := by
  unfold Maps.creditPid
  split <;> rfl

@[simp]
theorem Maps.creditCpu_pidTimes (maps : Maps) (cpu : Nat) (delta : UInt64) :
    (maps.creditCpu cpu delta).pidTimes = maps.pidTimes := by
  unfold Maps.creditCpu
  split <;> rfl

@[simp]
theorem Maps.creditCpu_pidLast (maps : Maps) (cpu : Nat) (delta : UInt64) :
    (maps.creditCpu cpu delta).pidLast = maps.pidLast := by
  unfold Maps.creditCpu
  split <;> rfl

theorem Maps.creditCpu_values {maps : Maps} {cpu : Nat} (inside : cpu < maxCpu)
    (delta : UInt64) (core : Nat) :
    (maps.creditCpu cpu delta).cpuTime.values core =
      if core = cpu then maps.cpuTime.values cpu + delta else maps.cpuTime.values core := by
  unfold Maps.creditCpu
  rw [BpfArray.get?_eq _ inside]
  exact BpfArray.values_set inside _ core

/-- `CPU_TIME` after an event: the credit and nothing else. -/
theorem step_cpuTime {maps : Maps} {event : Event} (inside : event.cpu < maxCpu) (core : Nat) :
    (step maps event).cpuTime.values core =
      match creditOf maps event with
      | some credit =>
          if core = event.cpu then maps.cpuTime.values core + credit.2
          else maps.cpuTime.values core
      | none => maps.cpuTime.values core := by
  cases event with
  | schedSwitch now cpu prev next =>
      cases prev with
      | none => rfl
      | some prev =>
          cases next with
          | none => rfl
          | some next =>
              simp only [step, trySchedSwitch, creditOf, Event.cpu] at inside ⊢
              by_cases counted : prev.tgid ≠ 0 ∧ prev.pid ≠ 0
              · rw [if_pos counted, if_pos counted]
                cases maps.pidLast.get? prev.tgid cpu with
                | none => rfl
                | some last =>
                    simp only [Option.map_some, Maps.creditCpu_values inside,
                      Maps.creditPid_cpuTime]
                    by_cases here : core = cpu <;> simp [here]
              · rw [if_neg counted, if_neg counted]
  | sampleTick now cpu current =>
      simp only [step, sampleTick, creditOf, Event.cpu] at inside ⊢
      by_cases skipped : current.tgid = 0 ∨ current.pid = 0
      · rw [if_pos skipped, if_pos skipped]
      · rw [if_neg skipped, if_neg skipped]
        cases maps.pidLast.get? current.tgid cpu with
        | none => rfl
        | some last =>
            simp only [Option.map_some, Maps.creditCpu_values inside, Maps.creditPid_cpuTime]
            by_cases here : core = cpu <;> simp [here]
  | processExit now cpu tgid args =>
      cases args with
      | none => rfl
      | some args =>
          have closed (result : Maps) :
              (if args.groupDead ≠ 0 then
                { result with
                  pidTimes := result.pidTimes.remove tgid
                  pidLast := result.pidLast.remove tgid }
              else result).cpuTime = result.cpuTime := by
            split <;> rfl
          simp only [step, tryProcessExit, creditOf, Event.cpu, closed] at inside ⊢
          by_cases counted : tgid ≠ 0 ∧ args.pid ≠ 0
          · rw [if_pos counted, if_pos counted]
            cases maps.pidLast.get? tgid cpu with
            | none => rfl
            | some last =>
                simp only [Option.map_some, Maps.creditCpu_values inside,
                  Maps.creditPid_cpuTime]
                by_cases here : core = cpu <;> simp [here]
          · rw [if_neg counted, if_neg counted]

/-- `PID_TIMES` after an event: the credit, then the removal of a dead process. -/
theorem step_pidTimes (maps : Maps) (event : Event) :
    (step maps event).pidTimes =
      let credited := match creditOf maps event with
        | some credit => (maps.creditPid credit.1 event.cpu credit.2).pidTimes
        | none => maps.pidTimes
      match reapedBy event with
      | some tgid => credited.remove tgid
      | none => credited := by
  cases event with
  | schedSwitch now cpu prev next =>
      cases prev with
      | none => rfl
      | some prev =>
          cases next with
          | none => rfl
          | some next =>
              simp only [step, trySchedSwitch, creditOf, reapedBy, Event.cpu]
              by_cases counted : prev.tgid ≠ 0 ∧ prev.pid ≠ 0
              · rw [if_pos counted, if_pos counted]
                cases maps.pidLast.get? prev.tgid cpu with
                | none => rfl
                | some last => simp
              · rw [if_neg counted, if_neg counted]
  | sampleTick now cpu current =>
      simp only [step, sampleTick, creditOf, reapedBy, Event.cpu]
      by_cases skipped : current.tgid = 0 ∨ current.pid = 0
      · rw [if_pos skipped, if_pos skipped]
      · rw [if_neg skipped, if_neg skipped]
        cases maps.pidLast.get? current.tgid cpu with
        | none => rfl
        | some last => simp
  | processExit now cpu tgid args =>
      cases args with
      | none => rfl
      | some args =>
          have closed (result : Maps) :
              (if args.groupDead ≠ 0 then
                { result with
                  pidTimes := result.pidTimes.remove tgid
                  pidLast := result.pidLast.remove tgid }
              else result).pidTimes =
                match reapedBy (.processExit now cpu tgid (some args)) with
                | some dead => result.pidTimes.remove dead
                | none => result.pidTimes := by
            by_cases dead : args.groupDead ≠ 0 <;> simp [reapedBy, dead]
          simp only [step, tryProcessExit, creditOf, Event.cpu, closed]
          by_cases counted : tgid ≠ 0 ∧ args.pid ≠ 0
          · rw [if_pos counted, if_pos counted]
            cases maps.pidLast.get? tgid cpu with
            | none => rfl
            | some last => simp
          · rw [if_neg counted, if_neg counted]

/-! ## Growth since a fixed earlier point -/

/-- What the processes present in `maps` gained on `cpu` since `earlier`. -/
def pidGrowth (earlier maps : Maps) (cpu : Nat) : Nat :=
  (maps.pidTimes.keys.map fun tgid =>
    (maps.pidTimes.read tgid cpu).toNat - (earlier.pidTimes.read tgid cpu).toNat).sum

/-- What the total of `cpu` gained since `earlier`. -/
def cpuGrowth (earlier maps : Maps) (cpu : Nat) : Nat :=
  (maps.cpuTime.values cpu).toNat - (earlier.cpuTime.values cpu).toNat

/-- On present keys a read is the slot itself, so the growth is the library's. -/
theorem pidGrowth_eq (earlier maps : Maps) (cpu : Nat) :
    pidGrowth earlier maps cpu =
      maps.pidTimes.growth UInt64.toNat
        (fun tgid => (earlier.pidTimes.read tgid cpu).toNat) cpu := by
  unfold pidGrowth PerCpuHashMap.growth
  congr 1
  apply List.map_congr_left
  intro tgid present
  simp [PerCpuHashMap.read, PerCpuHashMap.get?, present]

theorem growth_creditPid_le (maps : Maps) (tgid cpu : Nat) (delta : UInt64)
    (base : Nat → Nat) (core : Nat) :
    (maps.creditPid tgid cpu delta).pidTimes.growth UInt64.toNat base core ≤
      maps.pidTimes.growth UInt64.toNat base core + if core = cpu then delta.toNat else 0 := by
  unfold Maps.creditPid
  cases found : maps.pidTimes.get? tgid cpu with
  | none =>
      have absent := (PerCpuHashMap.get?_eq_none_iff _ _ _).mp found
      exact PerCpuHashMap.growth_insert_le _ _ _ _ _ rfl _ _ absent
  | some time =>
      obtain ⟨-, slot⟩ := (PerCpuHashMap.get?_eq_some_iff _ _ _ _).mp found
      apply PerCpuHashMap.growth_write_le
      rw [slot]
      exact toNat_add_le time delta

/-- One event: the process times of a CPU gain no more than its total does. -/
theorem growth_step_le {maps : Maps} {event : Event} (inside : event.cpu < maxCpu)
    (fits : CounterFits maps event) (base : Nat → Nat) (core : Nat) :
    (step maps event).pidTimes.growth UInt64.toNat base core +
        (maps.cpuTime.values core).toNat ≤
      maps.pidTimes.growth UInt64.toNat base core +
        ((step maps event).cpuTime.values core).toNat := by
  have dropped : (step maps event).pidTimes.growth UInt64.toNat base core ≤
      (match creditOf maps event with
        | some credit => (maps.creditPid credit.1 event.cpu credit.2).pidTimes
        | none => maps.pidTimes).growth UInt64.toNat base core := by
    rw [step_pidTimes]
    cases reapedBy event with
    | none => exact Nat.le_refl _
    | some tgid => exact PerCpuHashMap.growth_remove_le _ _ _ _ _
  rw [step_cpuTime inside]
  cases credited : creditOf maps event with
  | none =>
      rw [credited] at dropped
      exact Nat.add_le_add_right dropped _
  | some credit =>
      rw [credited] at dropped
      have gained := growth_creditPid_le maps credit.1 event.cpu credit.2 base core
      have bounded := Nat.le_trans dropped gained
      have room := fits credit credited
      by_cases here : core = event.cpu
      · subst here
        rw [if_pos rfl] at bounded
        simp only [if_true, toNat_add_of_fits room]
        omega
      · rw [if_neg here] at bounded
        simp only [here, if_false]
        omega

/-- A whole run: the growth since its start is covered by the growth of the total. -/
theorem growth_run_le {maps : Maps} {events : List Event}
    (inside : ∀ event ∈ events, event.cpu < maxCpu)
    (fits : Meets step CounterFits maps events) (base : Nat → Nat) (core : Nat) :
    (run step maps events).pidTimes.growth UInt64.toNat base core +
        (maps.cpuTime.values core).toNat ≤
      maps.pidTimes.growth UInt64.toNat base core +
        ((run step maps events).cpuTime.values core).toNat := by
  induction events generalizing maps with
  | nil => exact Nat.le_refl _
  | cons event rest ih =>
      have first := growth_step_le (inside event List.mem_cons_self) fits.1 base core
      have later := ih (fun other member => inside other (List.mem_cons_of_mem _ member)) fits.2
      rw [run_cons]
      omega

theorem pidGrowth_self (maps : Maps) (cpu : Nat) : pidGrowth maps maps cpu = 0 := by
  simp [pidGrowth]

/-- Between any two points of a run, the gains of the processes on a CPU add up to no more
than the gain of the CPU's total. -/
theorem pidGrowth_le_cpuGrowth (before after : List Event)
    (inside : ∀ event ∈ before ++ after, event.cpu < maxCpu)
    (fits : Meets step CounterFits Maps.empty (before ++ after)) (cpu : Nat) :
    pidGrowth (run step Maps.empty before) (run step Maps.empty (before ++ after)) cpu ≤
      cpuGrowth (run step Maps.empty before) (run step Maps.empty (before ++ after)) cpu := by
  rw [run_append]
  generalize earlier : run step Maps.empty before = first
  have fitsAfter : Meets step CounterFits first after := by
    rw [← earlier]
    exact ((meets_append before after).mp fits).2
  have insideAfter : ∀ event ∈ after, event.cpu < maxCpu := fun event member =>
    inside event (List.mem_append_right before member)
  have grown := growth_run_le insideAfter fitsAfter
    (fun tgid => (first.pidTimes.read tgid cpu).toNat) cpu
  rw [← pidGrowth_eq, ← pidGrowth_eq, pidGrowth_self] at grown
  unfold cpuGrowth
  omega

/-- Process 7 is switched in and sampled on CPU 0, dies, and its id is used again. -/
theorem pidGrowth_le_cpuGrowth_recreated :
    let before : List Event :=
      [.schedSwitch 10 0 (some ⟨0, 0⟩) (some ⟨7, 7⟩), .sampleTick 15 0 ⟨7, 7⟩]
    let after : List Event :=
      [.processExit 18 0 7 (some ⟨7, 1⟩), .schedSwitch 20 0 (some ⟨7, 7⟩) (some ⟨7, 8⟩),
        .schedSwitch 29 0 (some ⟨7, 8⟩) (some ⟨0, 0⟩)]
    pidGrowth (run step Maps.empty before) (run step Maps.empty (before ++ after)) 0 ≤
      cpuGrowth (run step Maps.empty before) (run step Maps.empty (before ++ after)) 0 :=
  pidGrowth_le_cpuGrowth _ _ (by decide) (by decide) 0

end ScaphandreFormal.Ebpf
