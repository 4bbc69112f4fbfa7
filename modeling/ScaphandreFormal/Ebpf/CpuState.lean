import ScaphandreFormal.Ebpf.Programs

/-!
# What one run of `cpu_state_tick` does

The loader attaches the handler to the first CPU of every socket and fills
`CPU_TO_SOCKET` from the `physical_package_id` files.  A run scans the CPUs up
to the first one without a socket, counts the active CPUs of each socket, and
submits an event for the sockets with no active CPU and with one.  Then it
copies `CPU_TIME` of all CPUs into `CPU_SNAPSHOT`, whichever handler it is.
-/

namespace ScaphandreFormal.Ebpf

open Foundation

/-! ## The machine and the loader -/

/-- What the loader reads of the machine: the online CPUs, and the number in each CPU's
`physical_package_id` file, absent when the file cannot be read or holds no number. -/
structure Machine where
  onlineCpus : List Nat
  physicalPackageId : Nat → Option Nat

namespace Machine

/-- `cpu` is an online CPU of the physical package `socket`. -/
def HasCpu (machine : Machine) (socket cpu : Nat) : Prop :=
  cpu ∈ machine.onlineCpus ∧ machine.physicalPackageId cpu = some socket

instance (machine : Machine) (socket cpu : Nat) : Decidable (machine.HasCpu socket cpu) :=
  inferInstanceAs (Decidable (_ ∧ _))

/-- The parse as `u16` that `populate_cpu_to_socket_map` relies on. -/
def readPhysicalPackageId (machine : Machine) (cpu : Nat) : Option Nat :=
  (machine.physicalPackageId cpu).filter (· < 2 ^ 16)

/-- The socket id `load` groups the handlers by, parsed as `u32` with `0` for a failure. -/
def socketIdOrZero (machine : Machine) (cpu : Nat) : Nat :=
  ((machine.physicalPackageId cpu).filter (· < 2 ^ 32)).getD 0

/-- The attaching loop of `load`, with its set of sockets seen so far. -/
def attachStateTick (machine : Machine) : List Nat → List Nat → List Nat
  | [], _ => []
  | cpu :: rest, seenSockets =>
      let socketId := machine.socketIdOrZero cpu
      if socketId ∈ seenSockets then machine.attachStateTick rest seenSockets
      else cpu :: machine.attachStateTick rest (socketId :: seenSockets)

/-- The CPUs `cpu_state_tick` is attached to. -/
def stateTickCpus (machine : Machine) : List Nat :=
  machine.attachStateTick machine.onlineCpus []

/-- The loop of `populate_cpu_to_socket_map`.  A CPU outside the map is skipped, a failed
read ends the loop, and the `u16` addition wraps. -/
def populateLoop (machine : Machine) : List Nat → BpfArray Nat maxCpu → BpfArray Nat maxCpu
  | [], cpuToSocket => cpuToSocket
  | cpu :: rest, cpuToSocket =>
      if maxCpu ≤ cpu then machine.populateLoop rest cpuToSocket
      else
        match machine.readPhysicalPackageId cpu with
        | some socket => machine.populateLoop rest (cpuToSocket.set cpu ((socket + 1) % 2 ^ 16))
        | none => cpuToSocket

def populateCpuToSocketMap (machine : Machine) (maps : Maps) : Maps :=
  { maps with cpuToSocket := machine.populateLoop machine.onlineCpus maps.cpuToSocket }

/-- The maps once the loader is done. -/
def loaded (machine : Machine) : Maps :=
  machine.populateCpuToSocketMap .empty

/-- Each entry is the unused mark or the package id of an online CPU, shifted by one. -/
def Describes (machine : Machine) (cpuToSocket : BpfArray Nat maxCpu) : Prop :=
  ∀ cpu, cpuToSocket.values cpu ≠ 0 →
    ∃ socket, machine.HasCpu socket cpu ∧ cpuToSocket.values cpu = socket + 1

theorem readPhysicalPackageId_eq_some {machine : Machine} {cpu socket : Nat}
    (found : machine.readPhysicalPackageId cpu = some socket) :
    machine.physicalPackageId cpu = some socket ∧ socket < 2 ^ 16 := by
  obtain ⟨present, small⟩ := Option.filter_eq_some_iff.mp found
  exact ⟨present, of_decide_eq_true small⟩

theorem describes_populateLoop (machine : Machine) (cpus : List Nat)
    (cpuToSocket : BpfArray Nat maxCpu) (online : ∀ cpu ∈ cpus, cpu ∈ machine.onlineCpus)
    (describes : machine.Describes cpuToSocket) :
    machine.Describes (machine.populateLoop cpus cpuToSocket) := by
  induction cpus generalizing cpuToSocket with
  | nil => exact describes
  | cons cpu rest ih =>
      have restOnline : ∀ other ∈ rest, other ∈ machine.onlineCpus :=
        fun other member => online other (List.mem_cons_of_mem _ member)
      rw [populateLoop]
      split
      · exact ih cpuToSocket restOnline describes
      · rename_i inside
        have inside : cpu < maxCpu := Nat.lt_of_not_le inside
        cases found : machine.readPhysicalPackageId cpu with
        | none => exact describes
        | some socket =>
            obtain ⟨package, small⟩ := readPhysicalPackageId_eq_some found
            refine ih _ restOnline ?_
            intro other
            rw [BpfArray.values_set inside]
            split
            · rename_i same
              intro used
              subst same
              refine ⟨socket, ⟨online other List.mem_cons_self, package⟩, ?_⟩
              omega
            · exact describes other

/-- The map the loader fills tells the truth about every CPU it has an entry for. -/
theorem describes_loaded (machine : Machine) : machine.Describes machine.loaded.cpuToSocket := by
  refine machine.describes_populateLoop _ _ (fun _ member => member) ?_
  intro cpu used
  exact absurd rfl used

end Machine

/-! ## The scan -/

/-- A scan of an interval that ends early gets to the numbers with no end mark up to them. -/
theorem mem_takeWhile_range' (keep : Nat → Bool) (start length index : Nat) :
    index ∈ (List.range' start length).takeWhile keep ↔
      start ≤ index ∧ index < start + length ∧
        ∀ earlier, start ≤ earlier → earlier ≤ index → keep earlier = true := by
  induction length generalizing start with
  | zero =>
      simp only [List.range'_zero, List.takeWhile_nil, List.not_mem_nil, false_iff]
      omega
  | succ length ih =>
      rw [List.range'_succ, List.takeWhile_cons]
      cases kept : keep start with
      | true =>
          simp only [if_true, List.mem_cons]
          rw [ih]
          constructor
          · rintro (rfl | ⟨after, inside, mapped⟩)
            · refine ⟨Nat.le_refl _, by omega, ?_⟩
              intro earlier low high
              rw [Nat.le_antisymm high low]
              exact kept
            · refine ⟨by omega, by omega, ?_⟩
              intro earlier low high
              rcases Nat.eq_or_lt_of_le low with rfl | later
              · exact kept
              · exact mapped earlier later high
          · rintro ⟨after, inside, mapped⟩
            rcases Nat.eq_or_lt_of_le after with rfl | later
            · exact Or.inl rfl
            · refine Or.inr ⟨later, by omega, ?_⟩
              intro earlier low high
              exact mapped earlier (by omega) high
      | false =>
          simp only [Bool.false_eq_true, if_false, List.not_mem_nil, false_iff]
          rintro ⟨after, _, mapped⟩
          rw [mapped start (Nat.le_refl _) after] at kept
          cases kept

theorem mem_takeWhile_range (keep : Nat → Bool) (length index : Nat) :
    index ∈ (List.range length).takeWhile keep ↔
      index < length ∧ ∀ earlier ≤ index, keep earlier = true := by
  rw [List.range_eq_range', mem_takeWhile_range']
  constructor
  · rintro ⟨_, inside, kept⟩
    exact ⟨by omega, fun earlier low => kept earlier (Nat.zero_le _) low⟩
  · rintro ⟨inside, kept⟩
    exact ⟨Nat.zero_le _, by omega, fun earlier _ low => kept earlier low⟩

namespace Maps

/-- The CPUs the first loop gets to. -/
def scannedCpus (maps : Maps) (cpus : List Nat) : List Nat :=
  cpus.takeWhile fun cpu => maps.cpuToSocket.values cpu ≠ 0

/-- `cpu` counts as an active CPU of `socket`. -/
def CountsFor (maps : Maps) (socket cpu : Nat) : Prop :=
  maps.cpuToSocket.values cpu = socket + 1 ∧
    maps.cpuTime.values cpu ≠ maps.cpuSnapshot.values cpu

instance (maps : Maps) (socket cpu : Nat) : Decidable (maps.CountsFor socket cpu) :=
  inferInstanceAs (Decidable (_ ∧ _))

/-- The CPUs the handler takes for the active ones of `socket`. -/
def activeCpus (maps : Maps) (socket : Nat) : List Nat :=
  (maps.scannedCpus (List.range maxCpu)).filter fun cpu => maps.CountsFor socket cpu

/-- The scan gets to `cpu`: no CPU up to it is without a socket. -/
def Reached (maps : Maps) (cpu : Nat) : Prop :=
  cpu < maxCpu ∧ ∀ earlier ≤ cpu, maps.cpuToSocket.values earlier ≠ 0

instance (maps : Maps) (cpu : Nat) : Decidable (maps.Reached cpu) :=
  inferInstanceAs (Decidable (_ ∧ ∀ earlier, earlier ≤ cpu → _))

theorem mem_scannedCpus (maps : Maps) (cpu : Nat) :
    cpu ∈ maps.scannedCpus (List.range maxCpu) ↔ maps.Reached cpu := by
  rw [scannedCpus, mem_takeWhile_range]
  simp only [decide_eq_true_eq]
  exact Iff.rfl

theorem mem_activeCpus (maps : Maps) (socket cpu : Nat) :
    cpu ∈ maps.activeCpus socket ↔ maps.Reached cpu ∧ maps.CountsFor socket cpu := by
  rw [activeCpus, List.mem_filter, mem_scannedCpus]
  simp only [decide_eq_true_eq]

end Maps

/-! ## The counts -/

/-- The count a cell of `socket_active_cpus` stands for. -/
def activeCount (counts : Nat → Nat) (socket : Nat) : Nat :=
  if counts socket = noCpuSeen then 0 else counts socket

/-- Below the mark, one visit adds one to its own socket or nothing. -/
theorem activeCount_visitCpu (counts : Nat → Nat) {socket : Nat} (inside : socket < maxSocket)
    (small : activeCount counts socket + 1 < noCpuSeen) (index : Nat) (active : Bool) :
    activeCount (visitCpu counts index active) socket =
      activeCount counts socket + if socket = index ∧ active = true then 1 else 0 := by
  unfold visitCpu
  split
  · by_cases same : socket = index
    · subst same
      have unmarked : activeCount counts socket ≠ noCpuSeen := by omega
      have oneMore : activeCount counts socket + 1 ≠ noCpuSeen := by omega
      unfold activeCount at unmarked oneMore ⊢
      cases active with
      | false => simp only [if_true, Bool.false_eq_true, if_false, and_false, Nat.add_zero,
          if_neg unmarked]
      | true => simp only [if_true, and_self, if_neg oneMore]
    · simp [activeCount, same]
  · rename_i outside
    have differs : socket ≠ index := by omega
    simp [differs]

/-- The loop and the scan stop together at a CPU without a socket. -/
theorem countActive_cons (maps : Maps) {cpu : Nat} (here : cpu < maxCpu) (rest : List Nat)
    (counts : Nat → Nat) :
    countActive maps (cpu :: rest) counts =
      if maps.cpuToSocket.values cpu = 0 then counts
      else countActive maps rest (visitCpu counts (maps.cpuToSocket.values cpu - 1)
        (maps.cpuTime.values cpu - maps.cpuSnapshot.values cpu != 0)) := by
  rw [countActive, BpfArray.get?_eq _ here, BpfArray.get?_eq _ here, BpfArray.get?_eq _ here]

theorem scannedCpus_cons (maps : Maps) (cpu : Nat) (rest : List Nat) :
    maps.scannedCpus (cpu :: rest) =
      if maps.cpuToSocket.values cpu = 0 then [] else cpu :: maps.scannedCpus rest := by
  by_cases unused : maps.cpuToSocket.values cpu = 0 <;> simp [Maps.scannedCpus, unused]

/-- The first loop adds up the active CPUs it gets to. -/
theorem activeCount_countActive (maps : Maps) {socket : Nat} (inside : socket < maxSocket)
    (cpus : List Nat) (present : ∀ cpu ∈ cpus, cpu < maxCpu) (counts : Nat → Nat)
    (small : activeCount counts socket + cpus.length < noCpuSeen) :
    activeCount (countActive maps cpus counts) socket =
      activeCount counts socket +
        ((maps.scannedCpus cpus).filter fun cpu => maps.CountsFor socket cpu).length := by
  induction cpus generalizing counts with
  | nil => rfl
  | cons cpu rest ih =>
      have here : cpu < maxCpu := present cpu List.mem_cons_self
      have later : ∀ other ∈ rest, other < maxCpu :=
        fun other member => present other (List.mem_cons_of_mem _ member)
      rw [List.length_cons] at small
      rw [countActive_cons maps here, scannedCpus_cons]
      by_cases unused : maps.cpuToSocket.values cpu = 0
      · simp [unused]
      · have visited := activeCount_visitCpu counts inside (by omega)
          (maps.cpuToSocket.values cpu - 1)
          (maps.cpuTime.values cpu - maps.cpuSnapshot.values cpu != 0)
        have counted : (socket = maps.cpuToSocket.values cpu - 1 ∧
            (maps.cpuTime.values cpu - maps.cpuSnapshot.values cpu != 0) = true) ↔
            maps.CountsFor socket cpu := by
          rw [bne_iff_ne, sub_ne_zero_iff, Maps.CountsFor]
          have shifted : socket = maps.cpuToSocket.values cpu - 1 ↔
              maps.cpuToSocket.values cpu = socket + 1 := by omega
          rw [shifted]
        rw [if_neg unused, if_neg unused, ih later _ (by rw [visited]; split <;> omega), visited]
        simp only [List.filter_cons, counted]
        by_cases counts : maps.CountsFor socket cpu
        · simp only [counts, if_true, decide_true, List.length_cons]
          omega
        · simp only [counts, if_false, decide_false, Bool.false_eq_true]
          omega

/-- The counts the second loop starts from. -/
def finalCounts (maps : Maps) : Nat → Nat :=
  countActive maps (List.range maxCpu) (fun _ => noCpuSeen)

theorem finalCounts_eq (maps : Maps) {socket : Nat} (inside : socket < maxSocket)
    (seen : finalCounts maps socket ≠ noCpuSeen) :
    finalCounts maps socket = (maps.activeCpus socket).length := by
  have counted := activeCount_countActive maps inside (List.range maxCpu)
    (fun cpu member => List.mem_range.mp member) (fun _ => noCpuSeen)
    (by simp [activeCount, noCpuSeen, maxCpu])
  have start : activeCount (fun _ => noCpuSeen) socket = 0 := if_pos rfl
  rw [start, Nat.zero_add] at counted
  rw [Maps.activeCpus, ← counted, activeCount]
  exact (if_neg seen).symm

/-! ## The report and the snapshot -/

/-- The event is one that the counts ask for. -/
def CalledFor (counts : Nat → Nat) (event : CpuStateEvent) : Prop :=
  counts event.socketId = match event.eventType with
    | .idleEvent => 0
    | .activationEvent => 1

theorem submit_pending (ring : RingBuf CpuStateEvent ringCapacity) (event : CpuStateEvent) :
    (ring.submit event).pending = ring.pending ∨
      (ring.submit event).pending = ring.pending ++ [event] := by
  unfold RingBuf.submit
  split
  · exact Or.inr rfl
  · exact Or.inl rfl

/-- The second loop only appends, and only what the counts ask for. -/
theorem reportSockets_pending (counts : Nat → Nat) (sockets : List Nat)
    (ring : RingBuf CpuStateEvent ringCapacity) :
    ∃ reported, (reportSockets counts sockets ring).pending = ring.pending ++ reported ∧
      ∀ event ∈ reported, event.socketId ∈ sockets ∧ CalledFor counts event := by
  induction sockets generalizing ring with
  | nil => exact ⟨[], by simp [reportSockets]⟩
  | cons socket rest ih =>
      -- Whatever this socket adds, the rest of the loop adds to it.
      have extend : ∀ kind, CalledFor counts ⟨socket, kind⟩ → ∃ reported,
          (reportSockets counts rest (ring.submit ⟨socket, kind⟩)).pending =
              ring.pending ++ reported ∧
            ∀ event ∈ reported, event.socketId ∈ socket :: rest ∧ CalledFor counts event := by
        intro kind called
        obtain ⟨reported, appended, justified⟩ := ih (ring.submit ⟨socket, kind⟩)
        have later : ∀ event ∈ reported,
            event.socketId ∈ socket :: rest ∧ CalledFor counts event := fun event member =>
          ⟨List.mem_cons_of_mem _ (justified event member).1, (justified event member).2⟩
        rcases submit_pending ring ⟨socket, kind⟩ with dropped | added
        · exact ⟨reported, by rw [appended, dropped], later⟩
        · refine ⟨⟨socket, kind⟩ :: reported, by simp [appended, added], ?_⟩
          intro event member
          rcases List.mem_cons.mp member with rfl | old
          · exact ⟨List.mem_cons_self, called⟩
          · exact later event old
      rw [reportSockets]
      split
      · exact ⟨[], by simp⟩
      · split
        · rename_i none
          exact extend .idleEvent none
        · split
          · rename_i one
            exact extend .activationEvent one
          · obtain ⟨reported, appended, justified⟩ := ih ring
            refine ⟨reported, appended, fun event member => ?_⟩
            exact ⟨List.mem_cons_of_mem _ (justified event member).1, (justified event member).2⟩

/-- The events one run of the handler puts into the ring buffer. -/
def submitted (maps : Maps) : List CpuStateEvent :=
  (cpuStateTick maps).cpuStateEvents.pending.drop maps.cpuStateEvents.pending.length

/-- The events submitted come from the counts of the first loop. -/
theorem calledFor_of_submitted {maps : Maps} {event : CpuStateEvent}
    (member : event ∈ submitted maps) :
    event.socketId < maxSocket ∧ CalledFor (finalCounts maps) event := by
  obtain ⟨reported, appended, justified⟩ :=
    reportSockets_pending (finalCounts maps) (List.range maxSocket) maps.cpuStateEvents
  change event ∈ (reportSockets (finalCounts maps) (List.range maxSocket)
    maps.cpuStateEvents).pending.drop _ at member
  rw [appended, List.drop_left] at member
  obtain ⟨listed, called⟩ := justified event member
  exact ⟨List.mem_range.mp listed, called⟩

/-- An idle event is submitted only for a socket without an active CPU the scan gets to,
an activation event only for one with a single such CPU. -/
theorem activeCpus_of_submitted {maps : Maps} {event : CpuStateEvent}
    (member : event ∈ submitted maps) :
    (maps.activeCpus event.socketId).length = match event.eventType with
      | .idleEvent => 0
      | .activationEvent => 1 := by
  obtain ⟨inside, called⟩ := calledFor_of_submitted member
  have seen : finalCounts maps event.socketId ≠ noCpuSeen := by
    rw [called]
    cases event.eventType <;> decide
  rw [← finalCounts_eq maps inside seen]
  exact called

theorem takeSnapshot_values (maps : Maps) (cpus : List Nat)
    (present : ∀ cpu ∈ cpus, cpu < maxCpu) (snapshot : BpfArray UInt64 maxCpu) (cpu : Nat) :
    (takeSnapshot maps cpus snapshot).values cpu =
      if cpu ∈ cpus then maps.cpuTime.values cpu else snapshot.values cpu := by
  induction cpus generalizing snapshot with
  | nil => rfl
  | cons first rest ih =>
      have here : first < maxCpu := present first List.mem_cons_self
      rw [takeSnapshot, BpfArray.get?_eq _ here]
      rw [ih (fun other member => present other (List.mem_cons_of_mem _ member)),
        BpfArray.values_set here]
      by_cases later : cpu ∈ rest
      · simp [later]
      · by_cases same : cpu = first
        · simp [same]
        · simp [later, same]

/-- A run of any handler brings the snapshot of every CPU up to date. -/
theorem cpuStateTick_snapshot (maps : Maps) {cpu : Nat} (inside : cpu < maxCpu) :
    (cpuStateTick maps).cpuSnapshot.values cpu = maps.cpuTime.values cpu := by
  change (takeSnapshot maps (List.range maxCpu) maps.cpuSnapshot).values cpu = _
  rw [takeSnapshot_values maps _ (fun other member => List.mem_range.mp member)]
  exact if_pos (List.mem_range.mpr inside)

theorem cpuStateTick_snapshot_outside (maps : Maps) {cpu : Nat} (outside : ¬ cpu < maxCpu) :
    (cpuStateTick maps).cpuSnapshot.values cpu = maps.cpuSnapshot.values cpu := by
  change (takeSnapshot maps (List.range maxCpu) maps.cpuSnapshot).values cpu = _
  rw [takeSnapshot_values maps _ (fun other member => List.mem_range.mp member)]
  exact if_neg (fun member => outside (List.mem_range.mp member))

@[simp]
theorem cpuStateTick_cpuTime (maps : Maps) : (cpuStateTick maps).cpuTime = maps.cpuTime := by
  rw [cpuStateTick]

@[simp]
theorem cpuStateTick_cpuToSocket (maps : Maps) :
    (cpuStateTick maps).cpuToSocket = maps.cpuToSocket := by
  rw [cpuStateTick]

end ScaphandreFormal.Ebpf
