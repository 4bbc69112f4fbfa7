import ScaphandreFormal.Ebpf.Accounting

/-!
# The maps refine the ledger

`Tracked` relates the maps to the ledger at one CPU: the counters are the
completed slices plus what ticks have already credited of the slice in
progress.  Events of other CPUs leave the relation alone unless they create or
delete the `PID_LAST` entry of the process that runs here.
-/

namespace ScaphandreFormal.Ebpf

open Foundation

namespace Node

/-- The counters of `cpu` are its completed slices and `extra` more for `owner`. -/
def CreditedBy (node : Node) (cpu owner extra : Nat) : Prop :=
  (node.maps.cpuTime.values cpu).toNat = node.ledger.total cpu + extra ∧
    ∀ tgid, (node.maps.pidTimes.read tgid cpu).toNat =
      node.ledger.totalOf tgid cpu + if tgid = owner then extra else 0

structure Tracked (node : Node) (cpu : Nat) : Prop where
  total_le : node.ledger.total cpu ≤ (node.ledger.opened cpu).getD node.ledger.clock
  start_le : ∀ start, node.ledger.opened cpu = some start → start ≤ node.ledger.clock
  settled : node.ledger.opened cpu = none ∨ (node.ledger.running cpu).tgid = 0 →
    node.Exact cpu
  unseen : node.ledger.opened cpu = none → (node.ledger.running cpu).tgid ≠ 0 →
    node.maps.pidLast.get? (node.ledger.running cpu).tgid cpu = none
  inProgress : ∀ start, node.ledger.opened cpu = some start →
    (node.ledger.running cpu).tgid ≠ 0 →
      ∃ last, node.maps.pidLast.get? (node.ledger.running cpu).tgid cpu = some last ∧
        start ≤ last.toNat ∧ last.toNat ≤ node.ledger.clock ∧
        node.CreditedBy cpu (node.ledger.running cpu).tgid (last.toNat - start)

theorem exact_iff_creditedBy_zero (node : Node) (cpu owner : Nat) :
    node.Exact cpu ↔ node.CreditedBy cpu owner 0 := by
  simp [Exact, CreditedBy]

/-- The relation only looks at what concerns its own CPU. -/
theorem Tracked.of_agree {node after : Node} {core : Nat} (tracked : node.Tracked core)
    (running : after.ledger.running core = node.ledger.running core)
    (opened : after.ledger.opened core = node.ledger.opened core)
    (total : after.ledger.total core = node.ledger.total core)
    (totalOf : ∀ tgid, after.ledger.totalOf tgid core = node.ledger.totalOf tgid core)
    (clock : node.ledger.clock ≤ after.ledger.clock)
    (cpuTime : after.maps.cpuTime.values core = node.maps.cpuTime.values core)
    (pidTimes : ∀ tgid, after.maps.pidTimes.read tgid core = node.maps.pidTimes.read tgid core)
    (pidLast : (node.ledger.running core).tgid ≠ 0 →
      after.maps.pidLast.get? (node.ledger.running core).tgid core =
        node.maps.pidLast.get? (node.ledger.running core).tgid core) :
    after.Tracked core := by
  have exact_iff : after.Exact core ↔ node.Exact core := by
    simp only [Exact, total, totalOf, cpuTime, pidTimes]
  have credited_iff (owner extra : Nat) :
      after.CreditedBy core owner extra ↔ node.CreditedBy core owner extra := by
    simp only [CreditedBy, total, totalOf, cpuTime, pidTimes]
  refine ⟨?_, ?_, ?_, ?_, ?_⟩
  · rw [total, opened]
    have bound := tracked.total_le
    cases known : node.ledger.opened core with
    | none =>
        rw [known] at bound
        exact Nat.le_trans bound clock
    | some start =>
        rw [known] at bound
        exact bound
  · intro start isOpened
    rw [opened] at isOpened
    exact Nat.le_trans (tracked.start_le start isOpened) clock
  · intro either
    rw [opened, running] at either
    exact exact_iff.mpr (tracked.settled either)
  · intro isOpened busy
    rw [opened] at isOpened
    rw [running] at busy ⊢
    rw [pidLast busy]
    exact tracked.unseen isOpened busy
  · intro start isOpened busy
    rw [opened] at isOpened
    rw [running] at busy ⊢
    obtain ⟨last, found, after_start, before_clock, credited⟩ :=
      tracked.inProgress start isOpened busy
    exact ⟨last, by rw [pidLast busy, found], after_start, Nat.le_trans before_clock clock,
      (credited_iff _ _).mpr credited⟩

/-- To track a CPU whose slice began at `start`, its counters have to follow the slice. -/
theorem Tracked.of_opened {node : Node} {cpu start : Nat}
    (opened : node.ledger.opened cpu = some start) (total_le : node.ledger.total cpu ≤ start)
    (start_le : start ≤ node.ledger.clock)
    (settled : (node.ledger.running cpu).tgid = 0 → node.Exact cpu)
    (inProgress : (node.ledger.running cpu).tgid ≠ 0 →
      ∃ last, node.maps.pidLast.get? (node.ledger.running cpu).tgid cpu = some last ∧
        start ≤ last.toNat ∧ last.toNat ≤ node.ledger.clock ∧
        node.CreditedBy cpu (node.ledger.running cpu).tgid (last.toNat - start)) :
    node.Tracked cpu := by
  refine ⟨?_, ?_, ?_, ?_, ?_⟩
  · rw [opened, Option.getD_some]
    exact total_le
  · intro other isOpened
    rw [opened] at isOpened
    cases isOpened
    exact start_le
  · rintro (isOpened | idle)
    · rw [opened] at isOpened
      cases isOpened
    · exact settled idle
  · intro isOpened
    rw [opened] at isOpened
    cases isOpened
  · intro other isOpened busy
    rw [opened] at isOpened
    cases isOpened
    exact inProgress busy

/-- A slice that begins now with exact counters is tracked. -/
theorem Tracked.of_fresh {node : Node} {cpu : Nat} {now : UInt64}
    (opened : node.ledger.opened cpu = some now.toNat) (clock : node.ledger.clock = now.toNat)
    (total_le : node.ledger.total cpu ≤ now.toNat) (settled : node.Exact cpu)
    (stamped : (node.ledger.running cpu).tgid ≠ 0 →
      node.maps.pidLast.get? (node.ledger.running cpu).tgid cpu = some now) :
    node.Tracked cpu := by
  refine .of_opened opened total_le (Nat.le_of_eq clock.symm) (fun _ => settled) ?_
  intro busy
  refine ⟨now, stamped busy, Nat.le_refl _, Nat.le_of_eq clock.symm, ?_⟩
  rw [Nat.sub_self]
  exact (exact_iff_creditedBy_zero _ _ _).mp settled

/-- Crediting the time since the slot brings the counters of the CPU up to date. -/
theorem Tracked.credit {node : Node} {cpu : Nat} (tracked : node.Tracked cpu) {start : Nat}
    (opened : node.ledger.opened cpu = some start) {last now : UInt64}
    (after_start : start ≤ last.toNat) (before_clock : last.toNat ≤ node.ledger.clock)
    (credited : node.CreditedBy cpu (node.ledger.running cpu).tgid (last.toNat - start))
    (later : node.ledger.clock ≤ now.toNat) :
    (node.maps.cpuTime.values cpu + (now - last)).toNat =
        node.ledger.total cpu + (now.toNat - start) ∧
      (node.maps.pidTimes.read (node.ledger.running cpu).tgid cpu + (now - last)).toNat =
        node.ledger.totalOf (node.ledger.running cpu).tgid cpu + (now.toNat - start) := by
  obtain ⟨cpuEq, pidEq⟩ := credited
  have ownEq := pidEq (node.ledger.running cpu).tgid
  rw [if_pos rfl] at ownEq
  have bound := tracked.total_le
  rw [opened, Option.getD_some] at bound
  have part := node.ledger.totalOf_le_total (node.ledger.running cpu).tgid cpu
  have fits := now.toNat_lt
  have delta : (now - last).toNat = now.toNat - last.toNat :=
    UInt64.toNat_sub_of_le _ _ (UInt64.le_iff_toNat_le.mpr (Nat.le_trans before_clock later))
  -- Slices of one CPU do not overlap, so their total stays below the clock.
  constructor
  · rw [toNat_add_of_fits (by omega), cpuEq, delta]
    omega
  · rw [toNat_add_of_fits (by omega), ownEq, delta]
    omega

/-- The `PID_LAST` slot that an accounting program on `cpu` finds for the running task;
the idle task is not looked up. -/
def slot (node : Node) (cpu : Nat) : Option UInt64 :=
  if (node.ledger.running cpu).tgid = 0 then none
  else node.maps.pidLast.get? (node.ledger.running cpu).tgid cpu

section Slot

variable {node : Node} {now : UInt64} {cpu : Nat} {event : Event}

theorem cpuTime_of_slot
    (credits : creditOf node.maps event =
      (node.slot cpu).map fun last => ((node.ledger.running cpu).tgid, now - last))
    (inside : event.cpu < maxCpu) (core : Nat) :
    (Ebpf.step node.maps event).cpuTime.values core =
      match node.slot cpu with
      | some last =>
          if core = event.cpu then node.maps.cpuTime.values core + (now - last)
          else node.maps.cpuTime.values core
      | none => node.maps.cpuTime.values core := by
  rw [step_cpuTime inside, credits]
  cases node.slot cpu <;> rfl

theorem read_of_slot (room : node.maps.pidTimes.keys.length < maxKeys)
    (keeps : reapedBy event = none)
    (credits : creditOf node.maps event =
      (node.slot cpu).map fun last => ((node.ledger.running cpu).tgid, now - last))
    (tgid core : Nat) :
    (Ebpf.step node.maps event).pidTimes.read tgid core =
      match node.slot cpu with
      | some last =>
          if tgid = (node.ledger.running cpu).tgid ∧ core = event.cpu then
            node.maps.pidTimes.read tgid core + (now - last)
          else node.maps.pidTimes.read tgid core
      | none => node.maps.pidTimes.read tgid core := by
  rw [read_step room keeps, credits]
  cases node.slot cpu <;> rfl

theorem slot_eq_none_of_idle (idle : (node.ledger.running cpu).tgid = 0) :
    node.slot cpu = none := by
  simp [slot, idle]

theorem slot_eq_of_busy (busy : (node.ledger.running cpu).tgid ≠ 0) :
    node.slot cpu = node.maps.pidLast.get? (node.ledger.running cpu).tgid cpu := by
  simp [slot, busy]

theorem map_slot (credit : UInt64 → Nat × UInt64) :
    (node.slot cpu).map credit =
      if (node.ledger.running cpu).tgid = 0 then none
      else (node.maps.pidLast.get? (node.ledger.running cpu).tgid cpu).map credit := by
  by_cases idle : (node.ledger.running cpu).tgid = 0 <;> simp [slot, idle]

end Slot

/-! ## Context switches -/

section Switch

variable {cpus : Nat} {node : Node} {now : UInt64} {cpu : Nat} {next : Task}

theorem switch_total (core : Nat) :
    (node.step (.schedSwitch now cpu next)).ledger.total core =
      node.ledger.total core + (if core = cpu then
        ((node.ledger.closing now.toNat cpu).map Slice.length).getD 0 else 0) :=
  Ledger.total_switch _ _ _ _ _

theorem switch_totalOf (tgid core : Nat) :
    (node.step (.schedSwitch now cpu next)).ledger.totalOf tgid core =
      node.ledger.totalOf tgid core +
        (if core = cpu ∧ tgid = (node.ledger.running cpu).tgid then
          ((node.ledger.closing now.toNat cpu).map Slice.length).getD 0 else 0) :=
  Ledger.totalOf_switch _ _ _ _ _ _

theorem switch_cpuTime (inside : cpu < maxCpu) (core : Nat) :
    (node.step (.schedSwitch now cpu next)).maps.cpuTime.values core =
      match node.slot cpu with
      | some last =>
          if core = cpu then node.maps.cpuTime.values core + (now - last)
          else node.maps.cpuTime.values core
      | none => node.maps.cpuTime.values core :=
  cpuTime_of_slot ((creditOf_switch _ _ _ _ _).trans (map_slot _).symm) inside core

theorem switch_read (room : node.maps.pidTimes.keys.length < maxKeys) (tgid core : Nat) :
    (node.step (.schedSwitch now cpu next)).maps.pidTimes.read tgid core =
      match node.slot cpu with
      | some last =>
          if tgid = (node.ledger.running cpu).tgid ∧ core = cpu then
            node.maps.pidTimes.read tgid core + (now - last)
          else node.maps.pidTimes.read tgid core
      | none => node.maps.pidTimes.read tgid core :=
  read_of_slot room rfl ((creditOf_switch _ _ _ _ _).trans (map_slot _).symm) tgid core

/-- After a context switch on `cpu` nothing of it is in progress. -/
theorem switch_exact (tracked : node.Tracked cpu) (inside : cpu < maxCpu)
    (later : node.ledger.clock ≤ now.toNat)
    (room : node.maps.pidTimes.keys.length < maxKeys) :
    (node.step (.schedSwitch now cpu next)).Exact cpu := by
  -- A slice that was not counted leaves ledger and maps as they were.
  have uncounted (slot : node.slot cpu = none)
      (closes : node.ledger.closing now.toNat cpu = none) (settled : node.Exact cpu) :
      (node.step (.schedSwitch now cpu next)).Exact cpu := by
    refine ⟨?_, ?_⟩
    · rw [switch_cpuTime inside, switch_total, slot, closes]
      simpa using settled.1
    · intro tgid
      rw [switch_read room, switch_totalOf, slot, closes]
      simpa using settled.2 tgid
  by_cases idle : (node.ledger.running cpu).tgid = 0
  · exact uncounted (slot_eq_none_of_idle idle) (by simp [Ledger.closing, idle])
      (tracked.settled (Or.inr idle))
  · cases opened : node.ledger.opened cpu with
    | none =>
        exact uncounted ((slot_eq_of_busy idle).trans (tracked.unseen opened idle))
          (by simp [Ledger.closing, idle, opened]) (tracked.settled (Or.inl opened))
    | some start =>
        obtain ⟨last, found, after_start, before_clock, credited⟩ :=
          tracked.inProgress start opened idle
        obtain ⟨cpuEq, pidEq⟩ :=
          tracked.credit opened after_start before_clock credited later
        have closes : (node.ledger.closing now.toNat cpu).map Slice.length =
            some (now.toNat - start) := by
          simp [Ledger.closing, idle, opened, Slice.length]
        have slot := (slot_eq_of_busy idle).trans found
        refine ⟨?_, ?_⟩
        · rw [switch_cpuTime inside, switch_total, closes, slot]
          simpa using cpuEq
        · intro tgid
          rw [switch_read room, switch_totalOf, closes, slot]
          by_cases same : tgid = (node.ledger.running cpu).tgid
          · subst same
            simpa using pidEq
          · simpa [same] using credited.2 tgid

theorem switch_tracked_self (tracked : node.Tracked cpu) (inside : cpu < maxCpu)
    (later : node.ledger.clock ≤ now.toNat)
    (room : node.maps.pidTimes.keys.length < maxKeys)
    (roomLast : node.maps.pidLast.keys.length < maxKeys) :
    (node.step (.schedSwitch now cpu next)).Tracked cpu := by
  have settled : (node.step (.schedSwitch now cpu next)).Exact cpu :=
    switch_exact tracked inside later room
  have opened : (node.step (.schedSwitch now cpu next)).ledger.opened cpu = some now.toNat := by
    simp [step, Ledger.switch]
  have running : (node.step (.schedSwitch now cpu next)).ledger.running cpu = next := by
    simp [step, Ledger.switch]
  refine .of_fresh opened rfl ?_ settled ?_
  · -- The slice just completed ended now, and it began after all earlier ones.
    rw [switch_total, if_pos rfl]
    have bound := tracked.total_le
    cases began : node.ledger.opened cpu with
    | none =>
        rw [began, Option.getD_none] at bound
        simp only [Ledger.closing, began, Option.map_none, ite_self, Option.getD_none]
        omega
    | some start =>
        rw [began, Option.getD_some] at bound
        have early := tracked.start_le start began
        by_cases idle : (node.ledger.running cpu).tgid = 0
        · simp only [Ledger.closing, idle, if_true, Option.map_none, Option.getD_none]
          omega
        · simp only [Ledger.closing, idle, if_false, began, Option.map_some, Slice.length,
            Option.getD_some]
          omega
  · intro _
    rw [running]
    simp only [step]
    rw [switch_pidLast, PerCpuHashMap.get?_insert]
    · simp
    · split
      · exact Nat.lt_of_le_of_lt List.length_erase_le roomLast
      · exact roomLast

/-- The slot of another CPU survives, because its process is not the one whose entry is
deleted or created. -/
theorem switch_pidLast_other {core : Nat} (exists_core : core < cpus) (other : core ≠ cpu)
    (roomLast : node.maps.pidLast.keys.length < maxKeys)
    (unshared : node.EntryUnshared cpus (.schedSwitch now cpu next))
    (busy : (node.ledger.running core).tgid ≠ 0) :
    (node.step (.schedSwitch now cpu next)).maps.pidLast.get?
        (node.ledger.running core).tgid core =
      node.maps.pidLast.get? (node.ledger.running core).tgid core := by
  obtain ⟨deletes, creates⟩ := unshared
  have kept : ∀ removed : PerCpuHashMap Nat UInt64 maxKeys,
      removed.keys.length < maxKeys →
      removed.get? (node.ledger.running core).tgid core =
        node.maps.pidLast.get? (node.ledger.running core).tgid core →
      (removed.insert next.tgid cpu now).get? (node.ledger.running core).tgid core =
        node.maps.pidLast.get? (node.ledger.running core).tgid core := by
    intro removed room same
    rw [PerCpuHashMap.get?_insert room]
    by_cases inserted : (node.ledger.running core).tgid = next.tgid
    · rw [if_pos inserted, if_neg other]
      by_cases known : next.tgid ∈ removed.keys
      · rw [if_pos known, ← inserted]
        exact same
      · -- A new entry for the process that runs here would be shared.
        exfalso
        have absent : next.tgid ∉ node.maps.pidLast.keys := by
          rw [← inserted, ← PerCpuHashMap.get?_eq_none_iff _ _ core, ← same,
            PerCpuHashMap.get?_eq_none_iff, inserted]
          exact known
        exact creates (inserted ▸ busy) absent core exists_core other inserted
    · rw [if_neg inserted]
      exact same
  simp only [step]
  rw [switch_pidLast]
  by_cases removes : (node.ledger.running cpu).tgid ≠ 0 ∧
      (node.ledger.running cpu).tgid ∈ node.maps.pidLast.keys
  · rw [if_pos removes]
    apply kept
    · exact Nat.lt_of_le_of_lt List.length_erase_le roomLast
    · rw [PerCpuHashMap.get?_remove,
        if_neg (deletes removes.1 removes.2 core exists_core other)]
  · rw [if_neg removes]
    exact kept _ roomLast rfl

theorem switch_tracked_other {core : Nat} (tracked : node.Tracked core)
    (exists_core : core < cpus) (other : core ≠ cpu) (inside : cpu < maxCpu)
    (later : node.ledger.clock ≤ now.toNat)
    (room : node.maps.pidTimes.keys.length < maxKeys)
    (roomLast : node.maps.pidLast.keys.length < maxKeys)
    (unshared : node.EntryUnshared cpus (.schedSwitch now cpu next)) :
    (node.step (.schedSwitch now cpu next)).Tracked core := by
  apply tracked.of_agree
  · simp [step, Ledger.switch, other]
  · simp [step, Ledger.switch, other]
  · simp [switch_total, other]
  · simp [switch_totalOf, other]
  · exact later
  · rw [switch_cpuTime inside]
    split <;> simp [other]
  · intro tgid
    rw [switch_read room]
    split <;> simp [other]
  · exact switch_pidLast_other exists_core other roomLast unshared

end Switch

/-! ## Ticks -/

section Tick

variable {cpus : Nat} {node : Node} {now : UInt64} {cpu : Nat}

theorem tick_cpuTime (inside : cpu < maxCpu) (core : Nat) :
    (node.step (.sampleTick now cpu)).maps.cpuTime.values core =
      match node.slot cpu with
      | some last =>
          if core = cpu then node.maps.cpuTime.values core + (now - last)
          else node.maps.cpuTime.values core
      | none => node.maps.cpuTime.values core :=
  cpuTime_of_slot ((creditOf_tick _ _ _ _).trans (map_slot _).symm) inside core

theorem tick_read (room : node.maps.pidTimes.keys.length < maxKeys) (tgid core : Nat) :
    (node.step (.sampleTick now cpu)).maps.pidTimes.read tgid core =
      match node.slot cpu with
      | some last =>
          if tgid = (node.ledger.running cpu).tgid ∧ core = cpu then
            node.maps.pidTimes.read tgid core + (now - last)
          else node.maps.pidTimes.read tgid core
      | none => node.maps.pidTimes.read tgid core :=
  read_of_slot room rfl ((creditOf_tick _ _ _ _).trans (map_slot _).symm) tgid core

/-- The first sight of a task: its slice opens now and nothing is credited. -/
theorem tick_tracked_first (tracked : node.Tracked cpu) (inside : cpu < maxCpu)
    (later : node.ledger.clock ≤ now.toNat)
    (room : node.maps.pidTimes.keys.length < maxKeys)
    (busy : (node.ledger.running cpu).tgid ≠ 0) (began : node.ledger.opened cpu = none)
    (stamped : (node.step (.sampleTick now cpu)).maps.pidLast.get?
      (node.ledger.running cpu).tgid cpu = some now) :
    (node.step (.sampleTick now cpu)).Tracked cpu := by
  have settled := tracked.settled (Or.inl began)
  have slot := (slot_eq_of_busy busy).trans (tracked.unseen began busy)
  have bound := tracked.total_le
  rw [began, Option.getD_none] at bound
  have still : (node.step (.sampleTick now cpu)).Exact cpu := by
    refine ⟨?_, ?_⟩
    · rw [tick_cpuTime inside, slot]
      exact settled.1
    · intro tgid
      rw [tick_read room, slot]
      exact settled.2 tgid
  refine .of_fresh ?_ rfl (Nat.le_trans bound later) still (fun _ => stamped)
  simp [step, Ledger.tick, busy, began]

/-- A later sight of it: the time since the last one is credited and the slice goes on. -/
theorem tick_tracked_again (tracked : node.Tracked cpu) (inside : cpu < maxCpu)
    (later : node.ledger.clock ≤ now.toNat)
    (room : node.maps.pidTimes.keys.length < maxKeys)
    (busy : (node.ledger.running cpu).tgid ≠ 0) {start : Nat}
    (began : node.ledger.opened cpu = some start)
    (stamped : (node.step (.sampleTick now cpu)).maps.pidLast.get?
      (node.ledger.running cpu).tgid cpu = some now) :
    (node.step (.sampleTick now cpu)).Tracked cpu := by
  obtain ⟨last, found, after_start, before_clock, credited⟩ := tracked.inProgress start began busy
  obtain ⟨cpuEq, pidEq⟩ := tracked.credit began after_start before_clock credited later
  have slot := (slot_eq_of_busy busy).trans found
  have early := Nat.le_trans (tracked.start_le start began) later
  have bound := tracked.total_le
  rw [began, Option.getD_some] at bound
  refine .of_opened ?_ bound early (fun idle => (busy idle).elim) (fun _ => ?_)
  · simp [step, Ledger.tick, began]
  refine ⟨now, stamped, early, Nat.le_refl _, ?_, ?_⟩
  · rw [tick_cpuTime inside, slot]
    simp only [if_true]
    exact cpuEq
  · intro tgid
    rw [tick_read room, slot]
    change _ = node.ledger.totalOf tgid cpu +
      if tgid = (node.ledger.running cpu).tgid then now.toNat - start else 0
    have before := credited.2 tgid
    by_cases same : tgid = (node.ledger.running cpu).tgid
    · subst same
      simp only [and_self, if_true]
      exact pidEq
    · simp only [same, false_and, if_false] at before ⊢
      exact before

theorem tick_tracked_self (tracked : node.Tracked cpu) (inside : cpu < maxCpu)
    (later : node.ledger.clock ≤ now.toNat)
    (room : node.maps.pidTimes.keys.length < maxKeys)
    (roomLast : node.maps.pidLast.keys.length < maxKeys) :
    (node.step (.sampleTick now cpu)).Tracked cpu := by
  by_cases idle : (node.ledger.running cpu).tgid = 0
  · -- The program returns at once and the ledger only advances its clock.
    apply tracked.of_agree
    · rfl
    · simp [step, Ledger.tick, idle]
    · rfl
    · exact fun _ => rfl
    · exact later
    · rw [tick_cpuTime inside, slot_eq_none_of_idle idle]
    · intro tgid
      rw [tick_read room, slot_eq_none_of_idle idle]
    · exact fun busy => (busy idle).elim
  · have stamped : (node.step (.sampleTick now cpu)).maps.pidLast.get?
        (node.ledger.running cpu).tgid cpu = some now := by
      simp only [step]
      rw [tick_pidLast, if_neg idle, PerCpuHashMap.get?_insert roomLast]
      simp
    cases began : node.ledger.opened cpu with
    | none => exact tick_tracked_first tracked inside later room idle began stamped
    | some start => exact tick_tracked_again tracked inside later room idle began stamped

theorem tick_tracked_other {core : Nat} (tracked : node.Tracked core)
    (exists_core : core < cpus) (other : core ≠ cpu) (inside : cpu < maxCpu)
    (later : node.ledger.clock ≤ now.toNat)
    (room : node.maps.pidTimes.keys.length < maxKeys)
    (roomLast : node.maps.pidLast.keys.length < maxKeys)
    (unshared : node.EntryUnshared cpus (.sampleTick now cpu)) :
    (node.step (.sampleTick now cpu)).Tracked core := by
  apply tracked.of_agree
  · rfl
  · simp [step, Ledger.tick, other]
  · rfl
  · exact fun _ => rfl
  · exact later
  · rw [tick_cpuTime inside]
    split <;> simp [other]
  · intro tgid
    rw [tick_read room]
    split <;> simp [other]
  · intro busy
    simp only [step]
    rw [tick_pidLast]
    by_cases idle : (node.ledger.running cpu).tgid = 0
    · rw [if_pos idle]
    · rw [if_neg idle, PerCpuHashMap.get?_insert roomLast]
      by_cases inserted : (node.ledger.running core).tgid = (node.ledger.running cpu).tgid
      · rw [if_pos inserted, if_neg other]
        by_cases known : (node.ledger.running cpu).tgid ∈ node.maps.pidLast.keys
        · rw [if_pos known, inserted]
        · exact (unshared idle known core exists_core other inserted).elim
      · rw [if_neg inserted]

end Tick

/-! ## Runs -/

theorem tracked_initial (running : Nat → Task) (cpu : Nat) :
    (initial running).Tracked cpu := by
  refine ⟨Nat.le_refl _, ?_, ?_, ?_, ?_⟩
  · intro start isOpened
    cases isOpened
  · intro _
    exact ⟨rfl, fun _ => rfl⟩
  · intro _ _
    rfl
  · intro start isOpened
    cases isOpened

/-- One event keeps every CPU tracked. -/
theorem tracked_step {cpus : Nat} (few : cpus ≤ maxCpu) {node : Node} {event : SchedEvent}
    (tracked : ∀ core, core < cpus → node.Tracked core)
    (admissible : node.Admissible cpus event) (unshared : node.EntryUnshared cpus event) :
    ∀ core, core < cpus → (node.step event).Tracked core := by
  intro core exists_core
  cases event with
  | schedSwitch now cpu next =>
      obtain ⟨⟨exists_cpu, later⟩, room, roomLast⟩ := admissible
      have inside := Nat.lt_of_lt_of_le exists_cpu few
      by_cases here : core = cpu
      · subst here
        exact switch_tracked_self (tracked core exists_core) inside later room roomLast
      · exact switch_tracked_other (tracked core exists_core) exists_core here inside later
          room roomLast unshared
  | sampleTick now cpu =>
      obtain ⟨⟨exists_cpu, later⟩, room, roomLast⟩ := admissible
      have inside := Nat.lt_of_lt_of_le exists_cpu few
      by_cases here : core = cpu
      · subst here
        exact tick_tracked_self (tracked core exists_core) inside later room roomLast
      · exact tick_tracked_other (tracked core exists_core) exists_core here inside later
          room roomLast unshared

theorem tracked_run {cpus : Nat} (few : cpus ≤ maxCpu) {node : Node}
    {events : List SchedEvent} (tracked : ∀ core, core < cpus → node.Tracked core)
    (admissible : Meets step (Admissible cpus) node events)
    (unshared : Meets step (EntryUnshared cpus) node events) :
    ∀ core, core < cpus → (run step node events).Tracked core := by
  induction events generalizing node with
  | nil => exact tracked
  | cons event rest ih =>
      exact ih (tracked_step few tracked admissible.1 unshared.1) admissible.2 unshared.2

/-- As long as `PID_LAST` entries are created and deleted only by a CPU that runs their
process alone, the accounting is exact after every context switch. -/
theorem exact_after_switch_of_unshared (cpus : Nat) (few : cpus ≤ maxCpu)
    (running : Nat → Task) (before : List SchedEvent) (now : UInt64) (cpu : Nat) (next : Task)
    (admissible : Meets step (Admissible cpus) (initial running)
      (before ++ [.schedSwitch now cpu next]))
    (unshared : Meets step (EntryUnshared cpus) (initial running)
      (before ++ [.schedSwitch now cpu next])) :
    (run step (initial running) (before ++ [.schedSwitch now cpu next])).Exact cpu := by
  obtain ⟨admissibleBefore, ⟨⟨exists_cpu, later⟩, room, -⟩, -⟩ :=
    (meets_append before _).mp admissible
  have unsharedBefore := ((meets_append before _).mp unshared).1
  have tracked := tracked_run few (fun core _ => tracked_initial running core)
    admissibleBefore unsharedBefore cpu exists_cpu
  rw [run_concat]
  exact switch_exact tracked (Nat.lt_of_lt_of_le exists_cpu few) later room

/-- Two processes on two CPUs, one of them with two threads that take turns. -/
theorem exact_after_switch_of_unshared_two_cpus :
    (run step (initial fun _ => .idle)
      ([.schedSwitch 10 0 ⟨7, 70, by decide⟩, .schedSwitch 12 1 ⟨8, 80, by decide⟩,
        .sampleTick 15 0, .schedSwitch 20 0 ⟨7, 71, by decide⟩] ++
        [.schedSwitch 30 1 .idle])).Exact 1 :=
  exact_after_switch_of_unshared 2 (by decide) _ _ _ _ _ (by decide) (by decide)

/-- Two threads of process 7 on two CPUs: the first to leave deletes the entry of the
other, whose slice from 10 to 30 is then lost. -/
theorem not_exact_after_switch_of_siblings :
    let events : List SchedEvent :=
      [.schedSwitch 10 0 ⟨7, 70, by decide⟩, .schedSwitch 10 1 ⟨7, 71, by decide⟩,
        .schedSwitch 20 0 .idle, .schedSwitch 30 1 .idle]
    Meets step (Admissible 2) (initial fun _ => .idle) events ∧
      (run step (initial fun _ => .idle) events).maps.cpuTime.values 1 = 0 ∧
      (run step (initial fun _ => .idle) events).ledger.total 1 = 20 ∧
      ¬ (run step (initial fun _ => .idle) events).Exact 1 := by
  refine ⟨by decide, by decide, by decide, ?_⟩
  intro claimed
  exact absurd claimed.1 (by decide)

end Node

end ScaphandreFormal.Ebpf
