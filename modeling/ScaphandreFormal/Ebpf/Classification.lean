import ScaphandreFormal.Ebpf.CpuState

/-!
# Which sockets one run of `cpu_state_tick` classifies

Both loops of the handler take an unused cell for the end of the machine: the
scan stops at the first CPU id that is not online, the report at the first
package of which the scan saw no CPU.  What a run submits for a package is
therefore decided by the CPUs below the first missing id, and only for the
packages below the first one missing among those.
-/

namespace ScaphandreFormal.Ebpf

open Foundation

/-! ## The map the loader fills, in full -/

namespace Machine

/-- Every online CPU has a cell in the maps and a package id that has one too. -/
def Fits (machine : Machine) : Prop :=
  ∀ cpu ∈ machine.onlineCpus,
    cpu < maxCpu ∧ ∃ package < maxSocket, machine.physicalPackageId cpu = some package

/-- No id up to `cpu` is missing among the online CPUs. -/
def InScan (machine : Machine) (cpu : Nat) : Prop :=
  ∀ earlier ≤ cpu, earlier ∈ machine.onlineCpus

instance (machine : Machine) (cpu : Nat) : Decidable (machine.InScan cpu) :=
  inferInstanceAs (Decidable (∀ earlier, earlier ≤ cpu → _))

/-- With no failing read the loop gives every CPU of its list the shifted package id. -/
theorem values_populateLoop (machine : Machine) (cpus : List Nat)
    (fits : ∀ cpu ∈ cpus,
      cpu < maxCpu ∧ ∃ package < maxSocket, machine.physicalPackageId cpu = some package)
    (cpuToSocket : BpfArray Nat maxCpu) (cpu : Nat) :
    (machine.populateLoop cpus cpuToSocket).values cpu =
      if cpu ∈ cpus then (machine.physicalPackageId cpu).getD 0 + 1
      else cpuToSocket.values cpu := by
  induction cpus generalizing cpuToSocket with
  | nil => rfl
  | cons first rest ih =>
      obtain ⟨inside, package, small, read⟩ := fits first List.mem_cons_self
      have small : package < 64 := small
      have parsed : machine.readPhysicalPackageId first = some package := by
        rw [readPhysicalPackageId, read]
        exact Option.filter_eq_some_iff.mpr ⟨rfl, decide_eq_true (by omega)⟩
      rw [populateLoop, if_neg (Nat.not_le.mpr inside), parsed]
      simp only
      rw [ih (fun other member => fits other (List.mem_cons_of_mem _ member)),
        BpfArray.values_set inside, Nat.mod_eq_of_lt (by omega)]
      by_cases later : cpu ∈ rest
      · simp [later]
      · by_cases same : cpu = first
        · subst same
          simp [later, read]
        · simp [later, same]

theorem values_loaded {machine : Machine} (fits : machine.Fits) (cpu : Nat) :
    machine.loaded.cpuToSocket.values cpu =
      if cpu ∈ machine.onlineCpus then (machine.physicalPackageId cpu).getD 0 + 1 else 0 :=
  machine.values_populateLoop machine.onlineCpus fits _ cpu

/-- An entry is a package id shifted by one just for the online CPUs of that package. -/
theorem values_loaded_eq_succ_iff {machine : Machine} (fits : machine.Fits)
    (package cpu : Nat) :
    machine.loaded.cpuToSocket.values cpu = package + 1 ↔ machine.HasCpu package cpu := by
  rw [values_loaded fits]
  by_cases online : cpu ∈ machine.onlineCpus
  · obtain ⟨_, stored, _, read⟩ := fits cpu online
    simp [HasCpu, online, read]
  · simp [HasCpu, online]

theorem values_loaded_ne_zero_iff {machine : Machine} (fits : machine.Fits) (cpu : Nat) :
    machine.loaded.cpuToSocket.values cpu ≠ 0 ↔ cpu ∈ machine.onlineCpus := by
  rw [values_loaded fits]
  by_cases online : cpu ∈ machine.onlineCpus
  · simp [online]
  · simp [online]

end Machine

/-! ## The marks and the report, in full -/

/-- Below the mark, one visit clears the mark of its own socket only. -/
theorem visitCpu_eq_noCpuSeen_iff (counts : Nat → Nat) {socket : Nat}
    (inside : socket < maxSocket) (small : activeCount counts socket + 1 < noCpuSeen)
    (index : Nat) (active : Bool) :
    visitCpu counts index active socket = noCpuSeen ↔
      counts socket = noCpuSeen ∧ socket ≠ index := by
  unfold visitCpu
  split
  · by_cases same : socket = index
    · subst same
      unfold activeCount at small
      cases active with
      | false =>
          simp only [if_true, Bool.false_eq_true, if_false, ne_eq, not_true, and_false, iff_false]
          omega
      | true =>
          simp only [if_true, ne_eq, not_true, and_false, iff_false]
          omega
    · simp [same]
  · rename_i outside
    have differs : socket ≠ index := by omega
    simp [differs]

/-- A cell keeps its mark through the first loop just when the scan gets to no CPU of its
socket. -/
theorem countActive_eq_noCpuSeen_iff (maps : Maps) {socket : Nat} (inside : socket < maxSocket)
    (cpus : List Nat) (present : ∀ cpu ∈ cpus, cpu < maxCpu) (counts : Nat → Nat)
    (small : activeCount counts socket + cpus.length < noCpuSeen) :
    countActive maps cpus counts socket = noCpuSeen ↔
      counts socket = noCpuSeen ∧
        ∀ cpu ∈ maps.scannedCpus cpus, maps.cpuToSocket.values cpu ≠ socket + 1 := by
  induction cpus generalizing counts with
  | nil => simp [countActive, Maps.scannedCpus]
  | cons cpu rest ih =>
      have here : cpu < maxCpu := present cpu List.mem_cons_self
      have later : ∀ other ∈ rest, other < maxCpu :=
        fun other member => present other (List.mem_cons_of_mem _ member)
      rw [List.length_cons] at small
      rw [countActive_cons maps here, scannedCpus_cons]
      by_cases unused : maps.cpuToSocket.values cpu = 0
      · simp [unused]
      · have visited := activeCount_visitCpu counts inside (by omega)
          (maps.cpuToSocket.values cpu - 1)
          (maps.cpuTime.values cpu - maps.cpuSnapshot.values cpu != 0)
        have shifted : socket ≠ maps.cpuToSocket.values cpu - 1 ↔
            maps.cpuToSocket.values cpu ≠ socket + 1 := by omega
        rw [if_neg unused, if_neg unused, ih later _ (by rw [visited]; split <;> omega),
          visitCpu_eq_noCpuSeen_iff counts inside (by omega), shifted, List.forall_mem_cons,
          and_assoc]

theorem finalCounts_eq_noCpuSeen_iff (maps : Maps) {socket : Nat} (inside : socket < maxSocket) :
    finalCounts maps socket = noCpuSeen ↔
      ∀ cpu, maps.Reached cpu → maps.cpuToSocket.values cpu ≠ socket + 1 := by
  rw [finalCounts, countActive_eq_noCpuSeen_iff maps inside (List.range maxCpu)
    (fun cpu member => List.mem_range.mp member) _ (by simp [activeCount, noCpuSeen, maxCpu])]
  simp only [Maps.mem_scannedCpus, true_and]

/-- The events that tell of a package how many of its CPUs are active. -/
def stateEvents (package : Nat) : Nat → List CpuStateEvent
  | 0 => [⟨package, .idleEvent⟩]
  | 1 => [⟨package, .activationEvent⟩]
  | _ => []

/-- The events the counts ask for at one socket. -/
def eventsFor (counts : Nat → Nat) (socket : Nat) : List CpuStateEvent :=
  stateEvents socket (counts socket)

theorem submit_of_room {ring : RingBuf CpuStateEvent ringCapacity}
    (room : ring.pending.length < ringCapacity) (event : CpuStateEvent) :
    (ring.submit event).pending = ring.pending ++ [event] := by
  unfold RingBuf.submit
  rw [if_pos room]

/-- With room for all of them, the second loop submits the events of every socket below the
first marked one. -/
theorem reportSockets_of_room (counts : Nat → Nat) (sockets : List Nat)
    (ring : RingBuf CpuStateEvent ringCapacity)
    (room : ring.pending.length + sockets.length ≤ ringCapacity) :
    (reportSockets counts sockets ring).pending =
      ring.pending ++
        (sockets.takeWhile fun socket => counts socket ≠ noCpuSeen).flatMap
          (eventsFor counts) := by
  induction sockets generalizing ring with
  | nil => simp [reportSockets]
  | cons socket rest ih =>
      rw [List.length_cons] at room
      rw [reportSockets, List.takeWhile_cons]
      by_cases marked : counts socket = noCpuSeen
      · simp [marked]
      · have add : ∀ kind, (reportSockets counts rest (ring.submit ⟨socket, kind⟩)).pending =
            ring.pending ++ ⟨socket, kind⟩ ::
              (rest.takeWhile fun socket => counts socket ≠ noCpuSeen).flatMap
                (eventsFor counts) := by
          intro kind
          have added := submit_of_room (by omega : ring.pending.length < ringCapacity)
            ⟨socket, kind⟩
          rw [ih _ (by rw [added, List.length_append, List.length_singleton]; omega), added]
          simp
        rw [if_neg marked]
        simp only [ne_eq, marked, not_false_eq_true, decide_true, if_true, List.flatMap_cons]
        unfold eventsFor stateEvents
        split
        · rename_i idle
          rw [add, idle]
          rfl
        · rename_i busy
          split
          · rename_i single
            rw [add, single]
            rfl
          · rename_i several
            rw [ih ring (by omega)]
            split
            · contradiction
            · contradiction
            · rfl

/-- Of the events of a list of sockets, those of one socket are its own. -/
theorem filter_flatMap_eventsFor (counts : Nat → Nat) (sockets : List Nat)
    (distinct : sockets.Nodup) (package : Nat) :
    (sockets.flatMap (eventsFor counts)).filter (·.socketId = package) =
      if package ∈ sockets then eventsFor counts package else [] := by
  have own : ∀ socket, (eventsFor counts socket).filter (·.socketId = package) =
      if socket = package then eventsFor counts package else [] := by
    intro socket
    unfold eventsFor stateEvents
    by_cases same : socket = package
    · subst same
      split <;> simp
    · split <;> simp [same]
  induction sockets with
  | nil => rfl
  | cons socket rest ih =>
      obtain ⟨fresh, distinct⟩ := List.nodup_cons.mp distinct
      rw [List.flatMap_cons, List.filter_append, ih distinct, own]
      by_cases same : socket = package
      · subst same
        simp [fresh]
      · simp [same, Ne.symm same]

/-- What a run submits for one package: the events its count asks for, if no package up to
it is marked. -/
theorem submitted_filter (maps : Maps)
    (room : maps.cpuStateEvents.pending.length + maxSocket ≤ ringCapacity) (package : Nat) :
    (submitted maps).filter (·.socketId = package) =
      if package < maxSocket ∧ ∀ earlier ≤ package, finalCounts maps earlier ≠ noCpuSeen then
        eventsFor (finalCounts maps) package
      else [] := by
  have reported : submitted maps =
      ((List.range maxSocket).takeWhile fun socket => finalCounts maps socket ≠ noCpuSeen).flatMap
        (eventsFor (finalCounts maps)) := by
    change (reportSockets (finalCounts maps) (List.range maxSocket)
      maps.cpuStateEvents).pending.drop _ = _
    rw [reportSockets_of_room _ _ _ (by rw [List.length_range]; exact room), List.drop_left]
  have distinct : ((List.range maxSocket).takeWhile fun socket =>
      finalCounts maps socket ≠ noCpuSeen).Nodup :=
    List.nodup_range.sublist (List.takeWhile_sublist _)
  rw [reported, filter_flatMap_eventsFor _ _ distinct]
  simp only [mem_takeWhile_range, decide_eq_true_eq]

/-! ## What a run should submit, and when it does -/

namespace Machine

/-- Some online CPU belongs to the package. -/
def Populated (machine : Machine) (package : Nat) : Prop :=
  ∃ cpu ∈ machine.onlineCpus, machine.physicalPackageId cpu = some package

instance (machine : Machine) (package : Nat) : Decidable (machine.Populated package) :=
  inferInstanceAs (Decidable (∃ cpu ∈ machine.onlineCpus, _))

/-- The online CPUs of a package that have run since the snapshot. -/
def activeOnline (machine : Machine) (maps : Maps) (package : Nat) : List Nat :=
  (List.range maxCpu).filter fun cpu =>
    machine.HasCpu package cpu ∧ maps.cpuTime.values cpu ≠ maps.cpuSnapshot.values cpu

/-- The events that tell the state of a package: one of a kind, or none. -/
def dueEvents (machine : Machine) (maps : Maps) (package : Nat) : List CpuStateEvent :=
  if machine.Populated package then
    stateEvents package (machine.activeOnline maps package).length
  else []

/-- One run of the handler submits for every package what its CPUs call for. -/
def Classifies (machine : Machine) (maps : Maps) : Prop :=
  ∀ package, (submitted maps).filter (·.socketId = package) = machine.dueEvents maps package

/-- The scan gets to a CPU of the package. -/
def InCount (machine : Machine) (package : Nat) : Prop :=
  ∃ cpu ∈ machine.onlineCpus, machine.physicalPackageId cpu = some package ∧ machine.InScan cpu

instance (machine : Machine) (package : Nat) : Decidable (machine.InCount package) :=
  inferInstanceAs (Decidable (∃ cpu ∈ machine.onlineCpus, _))

/-- The report gets to the package: no package id up to it is without a counted CPU. -/
def InReport (machine : Machine) (package : Nat) : Prop :=
  ∀ earlier ≤ package, machine.InCount earlier

instance (machine : Machine) (package : Nat) : Decidable (machine.InReport package) :=
  inferInstanceAs (Decidable (∀ earlier, earlier ≤ package → _))

/-- Either the report gets to the package and the scan to all its active CPUs, or two of its
CPUs are active and the handler, if it reports on the package at all, gets to two. -/
def Classifiable (machine : Machine) (maps : Maps) (package : Nat) : Prop :=
  (machine.InReport package ∧ ∀ cpu ∈ machine.activeOnline maps package, machine.InScan cpu) ∨
    (2 ≤ (machine.activeOnline maps package).length ∧
      (machine.InReport package →
        2 ≤ ((machine.activeOnline maps package).filter fun cpu => machine.InScan cpu).length))

instance (machine : Machine) (maps : Maps) (package : Nat) :
    Decidable (machine.Classifiable maps package) :=
  inferInstanceAs (Decidable (_ ∨ _))

variable {machine : Machine} {maps : Maps}

theorem lt_maxSocket_of_populated (fits : machine.Fits) {package : Nat}
    (populated : machine.Populated package) : package < maxSocket := by
  obtain ⟨cpu, online, read⟩ := populated
  obtain ⟨_, stored, small, same⟩ := fits cpu online
  rw [read] at same
  cases same
  exact small

theorem reached_iff_inScan (fits : machine.Fits)
    (filled : maps.cpuToSocket = machine.loaded.cpuToSocket) (cpu : Nat) :
    maps.Reached cpu ↔ machine.InScan cpu := by
  unfold Maps.Reached InScan
  simp only [filled, values_loaded_ne_zero_iff fits]
  constructor
  · exact fun reached => reached.2
  · exact fun scanned => ⟨(fits cpu (scanned cpu (Nat.le_refl _))).1, scanned⟩

theorem finalCounts_ne_noCpuSeen_iff (fits : machine.Fits)
    (filled : maps.cpuToSocket = machine.loaded.cpuToSocket) {package : Nat}
    (inside : package < maxSocket) :
    finalCounts maps package ≠ noCpuSeen ↔ machine.InCount package := by
  rw [ne_eq, finalCounts_eq_noCpuSeen_iff maps inside, InCount]
  simp only [reached_iff_inScan fits filled, filled, ne_eq, values_loaded_eq_succ_iff fits,
    not_forall, not_not, HasCpu]
  constructor
  · rintro ⟨cpu, scanned, online, read⟩
    exact ⟨cpu, online, read, scanned⟩
  · rintro ⟨cpu, online, read, scanned⟩
    exact ⟨cpu, scanned, online, read⟩

/-- The handler counts the active online CPUs that the scan gets to. -/
theorem length_activeCpus (fits : machine.Fits)
    (filled : maps.cpuToSocket = machine.loaded.cpuToSocket) (package : Nat) :
    (maps.activeCpus package).length =
      ((machine.activeOnline maps package).filter fun cpu => machine.InScan cpu).length := by
  have distinctCounted : (maps.activeCpus package).Nodup :=
    (List.nodup_range.sublist (List.takeWhile_sublist _)).filter _
  have distinctActive :
      ((machine.activeOnline maps package).filter fun cpu => machine.InScan cpu).Nodup :=
    (List.nodup_range.filter _).filter _
  refine ((List.perm_ext_iff_of_nodup distinctCounted distinctActive).mpr ?_).length_eq
  intro cpu
  rw [Maps.mem_activeCpus, reached_iff_inScan fits filled]
  simp only [activeOnline, List.mem_filter, List.mem_range, decide_eq_true_eq, Maps.CountsFor,
    filled, values_loaded_eq_succ_iff fits]
  constructor
  · rintro ⟨scanned, owned, active⟩
    exact ⟨⟨(fits cpu owned.1).1, owned, active⟩, scanned⟩
  · rintro ⟨⟨_, owned, active⟩, scanned⟩
    exact ⟨scanned, owned, active⟩

/-- What a run submits for one package of the machine. -/
theorem submitted_filter_eq (fits : machine.Fits)
    (filled : maps.cpuToSocket = machine.loaded.cpuToSocket)
    (room : maps.cpuStateEvents.pending.length + maxSocket ≤ ringCapacity) (package : Nat) :
    (submitted maps).filter (·.socketId = package) =
      if machine.InReport package then
        stateEvents package
          ((machine.activeOnline maps package).filter fun cpu => machine.InScan cpu).length
      else [] := by
  rw [submitted_filter maps room]
  have report : (package < maxSocket ∧
      ∀ earlier ≤ package, finalCounts maps earlier ≠ noCpuSeen) ↔ machine.InReport package := by
    constructor
    · rintro ⟨inside, unmarked⟩ earlier low
      exact (finalCounts_ne_noCpuSeen_iff fits filled (Nat.lt_of_le_of_lt low inside)).mp
        (unmarked earlier low)
    · intro reported
      have inside : package < maxSocket := by
        obtain ⟨cpu, online, read, _⟩ := reported package (Nat.le_refl _)
        exact lt_maxSocket_of_populated fits ⟨cpu, online, read⟩
      refine ⟨inside, fun earlier low => ?_⟩
      exact (finalCounts_ne_noCpuSeen_iff fits filled (Nat.lt_of_le_of_lt low inside)).mpr
        (reported earlier low)
  by_cases reported : machine.InReport package
  · obtain ⟨inside, unmarked⟩ := report.mpr reported
    rw [if_pos ⟨inside, unmarked⟩, if_pos reported, ← length_activeCpus fits filled, eventsFor,
      finalCounts_eq maps inside (unmarked package (Nat.le_refl _))]
  · rw [if_neg (fun both => reported (report.mp both)), if_neg reported]

/-- Two counts call for the same events just when they are the same or both too large to call
for any. -/
theorem stateEvents_eq_iff (package first second : Nat) :
    stateEvents package first = stateEvents package second ↔
      first = second ∨ 2 ≤ first ∧ 2 ≤ second := by
  rcases first with _ | _ | first <;> rcases second with _ | _ | second <;> simp [stateEvents]

theorem stateEvents_eq_nil_iff (package count : Nat) :
    stateEvents package count = [] ↔ 2 ≤ count := by
  rcases count with _ | _ | count <;> simp [stateEvents]

/-- A package is classified as it should be just when neither early end of a loop hides one of
its active CPUs that matters. -/
theorem filter_eq_dueEvents_iff (fits : machine.Fits)
    (filled : maps.cpuToSocket = machine.loaded.cpuToSocket)
    (room : maps.cpuStateEvents.pending.length + maxSocket ≤ ringCapacity) {package : Nat}
    (populated : machine.Populated package) :
    (submitted maps).filter (·.socketId = package) = machine.dueEvents maps package ↔
      machine.Classifiable maps package := by
  rw [submitted_filter_eq fits filled room, dueEvents, if_pos populated, Classifiable]
  by_cases reported : machine.InReport package
  · have scannedAll :
        (∀ cpu ∈ machine.activeOnline maps package, machine.InScan cpu) ↔
          ((machine.activeOnline maps package).filter fun cpu => machine.InScan cpu).length =
            (machine.activeOnline maps package).length := by
      rw [List.length_filter_eq_length_iff]
      simp only [decide_eq_true_eq]
    have fewer := List.length_filter_le (fun cpu => decide (machine.InScan cpu))
      (machine.activeOnline maps package)
    rw [if_pos reported, stateEvents_eq_iff, scannedAll]
    simp only [reported, true_and, true_implies]
    omega
  · rw [if_neg reported, eq_comm, stateEvents_eq_nil_iff]
    simp only [reported, false_and, false_or, false_implies, and_true]

theorem filter_eq_nil_of_not_populated (fits : machine.Fits)
    (filled : maps.cpuToSocket = machine.loaded.cpuToSocket)
    (room : maps.cpuStateEvents.pending.length + maxSocket ≤ ringCapacity) {package : Nat}
    (absent : ¬ machine.Populated package) :
    (submitted maps).filter (·.socketId = package) = [] := by
  rw [submitted_filter_eq fits filled room, if_neg]
  intro reported
  obtain ⟨cpu, online, read, _⟩ := reported package (Nat.le_refl _)
  exact absent ⟨cpu, online, read⟩

/-- One run classifies the whole machine correctly just when each package with an online CPU
is classifiable; nothing is submitted for any other package in any case. -/
theorem classifies_iff_classifiable (fits : machine.Fits)
    (filled : maps.cpuToSocket = machine.loaded.cpuToSocket)
    (room : maps.cpuStateEvents.pending.length + maxSocket ≤ ringCapacity) :
    machine.Classifies maps ↔
      ∀ package, machine.Populated package → machine.Classifiable maps package := by
  constructor
  · intro classifies package populated
    exact (filter_eq_dueEvents_iff fits filled room populated).mp (classifies package)
  · intro classifiable package
    by_cases populated : machine.Populated package
    · exact (filter_eq_dueEvents_iff fits filled room populated).mpr
        (classifiable package populated)
    · rw [filter_eq_nil_of_not_populated fits filled room populated, dueEvents, if_neg populated]

/-- Four CPUs of two packages with all ids in use, one CPU of the second package active. -/
theorem classifies_iff_classifiable_two_packages :
    let machine : Machine := ⟨[0, 1, 2, 3], fun cpu => some (cpu / 2)⟩
    let maps : Maps := { machine.loaded with cpuTime := BpfArray.empty.set 3 5 }
    machine.Classifies maps := by
  intro machine maps
  have fits : machine.Fits := by
    intro cpu online
    have low : cpu < 4 := by
      simp only [machine, List.mem_cons, List.not_mem_nil, or_false] at online
      omega
    have small : cpu / 2 < 64 := by omega
    exact ⟨Nat.lt_trans low (by decide), cpu / 2, small, rfl⟩
  have filled : maps.cpuToSocket = machine.loaded.cpuToSocket := rfl
  have room : maps.cpuStateEvents.pending.length + maxSocket ≤ ringCapacity := by decide
  refine (classifies_iff_classifiable fits filled room).mpr ?_
  rintro package ⟨cpu, online, read⟩
  have known : package = 0 ∨ package = 1 := by
    simp only [machine, List.mem_cons, List.not_mem_nil, or_false, Option.some.injEq] at online read
    omega
  rcases known with rfl | rfl
  · decide +kernel
  · decide +kernel

/-- With CPU 1 offline the scan ends before CPU 2, and the package is reported idle while
CPU 2 is active. -/
theorem not_classifies_of_offline_cpu :
    let machine : Machine := ⟨[0, 2], fun _ => some 0⟩
    let maps : Maps := { machine.loaded with cpuTime := BpfArray.empty.set 2 5 }
    machine.Fits ∧ maps.cpuToSocket = machine.loaded.cpuToSocket ∧
      maps.cpuStateEvents.pending.length + maxSocket ≤ ringCapacity ∧
      submitted maps = [⟨0, .idleEvent⟩] ∧
      machine.dueEvents maps 0 = [⟨0, .activationEvent⟩] ∧ ¬ machine.Classifies maps := by
  intro machine maps
  have fits : machine.Fits := by
    intro cpu online
    simp only [machine, List.mem_cons, List.not_mem_nil, or_false] at online
    rcases online with rfl | rfl
    · exact ⟨by decide, 0, by decide, rfl⟩
    · exact ⟨by decide, 0, by decide, rfl⟩
  have idle : submitted maps = [⟨0, .idleEvent⟩] := by decide +kernel
  have due : machine.dueEvents maps 0 = [⟨0, .activationEvent⟩] := by decide +kernel
  refine ⟨fits, rfl, by decide, idle, due, ?_⟩
  intro classifies
  have same := classifies 0
  rw [idle, due] at same
  exact absurd same (by decide)

end Machine

end ScaphandreFormal.Ebpf
