import ScaphandreFormal.Foundation.Trace
import ScaphandreFormal.Sensors.ProcessTracker

/-!
# Process churn and per-core deltas

A `Host` runs processes whose pids are reused, and the tracker records what a
refresh sees of them.  Every record carries a note of the life it was read from
and of the time that life had run on each CPU.  The tracker compares the two
newest records of a pid, which are of one life as long as no record is added on
top of the newest record of an earlier life with the same executable.
-/

namespace ScaphandreFormal.Sensors

open Foundation

/-- The observer's note: which process the data was read from, counted by birth, and the
nanoseconds it had run on each CPU. -/
structure Life where
  birth : Nat
  ran : Nat → Nat

/-- A process as the kernel has it.  Its entry in `PID_TIMES` exists from the first credit
to its exit and holds the time it ran. -/
structure KernelProcess where
  birth : Nat
  ran : Nat → Nat
  counted : Bool
  exited : Bool

structure Host where
  tracker : ProcessTracker Life
  processes : Nat → Option KernelProcess
  births : Nat
  /-- The number of slots of the per-CPU map. -/
  cpus : Nat

/-- What a refresh reads of one process, and when.  `lookup` says whether the map of core
times is there and answers. -/
structure Sighting where
  process : IProcess Unit
  now : Nat
  lookup : Bool

inductive HostEvent where
  | spawn (pid : Nat)
  | credit (pid cpu delta : Nat)
  | exit (pid : Nat)
  | reap (pid : Nat)
  | refreshProcs (seen : List Sighting)
  | cleanTerminated (status : Nat → Option ProcessStatus)

namespace Host

def setProcess (host : Host) (pid : Nat) (process : Option KernelProcess) : Host :=
  { host with processes := fun other => if other = pid then process else host.processes other }

/-- The vector of `PID_TIMES` slots of a process. -/
def coreTimes (cpus : Nat) (ran : Nat → Nat) : List UInt64 :=
  (List.range cpus).map fun cpu => UInt64.ofNat (ran cpu)

/-- `IProcess::new` on a process of the table, with the core times looked up for it. -/
def read (host : Host) (sighting : Sighting) (process : KernelProcess) : IProcess Life :=
  { pid := sighting.process.pid
    comm := sighting.process.comm
    cpuBusyTime := sighting.process.cpuBusyTime
    nodeBusyTime := sighting.process.nodeBusyTime
    coreBusyTimes :=
      if process.counted && sighting.lookup then some (coreTimes host.cpus process.ran) else none
    virtualMemory := sighting.process.virtualMemory
    memory := sighting.process.memory
    diskRead := sighting.process.diskRead
    diskWritten := sighting.process.diskWritten
    totalDiskRead := sighting.process.totalDiskRead
    totalDiskWritten := sighting.process.totalDiskWritten
    trace := ⟨process.birth, process.ran⟩ }

/-- One round of the loop of `refresh_procs`; only processes of the table are seen. -/
def observe (host : Host) (sighting : Sighting) : Host :=
  match host.processes sighting.process.pid with
  | some process =>
      { host with tracker :=
          host.tracker.addProcessRecord sighting.now (host.read sighting process) }
  | none => host

def step (host : Host) : HostEvent → Host
  | .spawn pid =>
      { host.setProcess pid (some ⟨host.births, fun _ => 0, false, false⟩) with
        births := host.births + 1 }
  | .credit pid cpu delta =>
      match host.processes pid with
      | some process => host.setProcess pid (some { process with
          ran := fun c => if c = cpu then process.ran c + delta else process.ran c
          counted := true })
      | none => host
  | .exit pid => host.setProcess pid ((host.processes pid).map fun process =>
      { process with counted := false, exited := true })
  | .reap pid => host.setProcess pid none
  | .refreshProcs seen => run observe host seen
  | .cleanTerminated status =>
      { host with tracker := host.tracker.cleanTerminatedProcessRecordsVectors status }

def initial (cpus nbCores maxRecordsPerProcess : Nat) : Host where
  tracker := ⟨[], nbCores, maxRecordsPerProcess⟩
  processes := fun _ => none
  births := 0
  cpus := cpus

/-- A pid is reused only when it is free, only living processes run, and counters stay
below `2 ^ 64`. -/
def Admissible (host : Host) : HostEvent → Prop
  | .spawn pid => host.processes pid = none
  | .credit pid cpu delta =>
      ∀ process ∈ host.processes pid, process.exited = false ∧ process.ran cpu + delta < 2 ^ 64
  | _ => True

/-- Where the vector of the pid is continued, the clock is not behind its records, and its
newest record is of the same life, or one of the two has no core times. -/
def Continues (host : Host) (sighting : Sighting) : Prop :=
  ∀ process ∈ host.processes sighting.process.pid,
    ∀ vector ∈ host.tracker.vectorOf sighting.process.pid,
      ∀ newest ∈ vector.head?, newest.process.comm = sighting.process.comm →
        (∀ record ∈ vector, record.timestamp ≤ sighting.now) ∧
          (newest.process.trace.birth = process.birth ∨
            newest.process.coreBusyTimes = none ∨
            (process.counted && sighting.lookup) = false)

/-- Every record that a refresh adds continues its vector. -/
def Distinguishes (host : Host) : HostEvent → Prop
  | .refreshProcs seen => Meets observe Continues host seen
  | _ => True

instance (host : Host) (event : HostEvent) : Decidable (Admissible host event) :=
  match event with
  | .spawn pid => inferInstanceAs (Decidable (host.processes pid = none))
  | .credit pid _ _ => inferInstanceAs (Decidable (∀ process ∈ host.processes pid, _ ∧ _))
  | .exit _ => isTrue trivial
  | .reap _ => isTrue trivial
  | .refreshProcs _ => isTrue trivial
  | .cleanTerminated _ => isTrue trivial

instance (host : Host) (sighting : Sighting) : Decidable (Continues host sighting) :=
  inferInstanceAs (Decidable (∀ process ∈ host.processes sighting.process.pid,
    ∀ vector ∈ host.tracker.vectorOf sighting.process.pid, ∀ newest ∈ vector.head?, _ → _))

instance (host : Host) (event : HostEvent) : Decidable (Distinguishes host event) :=
  match event with
  | .spawn _ => isTrue trivial
  | .credit _ _ _ => isTrue trivial
  | .exit _ => isTrue trivial
  | .reap _ => isTrue trivial
  | .refreshProcs seen => inferInstanceAs (Decidable (Meets observe Continues host seen))
  | .cleanTerminated _ => isTrue trivial

/-- Every call of `get_per_core_cpu_time_delta` that returns deltas compares two records of
one life, subtracts the smaller from the larger counter on every CPU, and returns the
nanoseconds that the process ran between the two. -/
def DeltasSound (host : Host) : Prop :=
  ∀ pid deltas, host.tracker.getPerCoreCpuTimeDelta pid = some deltas →
    ∃ last prev older lastTimes prevTimes,
      host.tracker.findRecords pid = some (last :: prev :: older) ∧
        last.process.coreBusyTimes = some lastTimes ∧
        prev.process.coreBusyTimes = some prevTimes ∧
        last.process.trace.birth = prev.process.trace.birth ∧
        List.Forall₂ (· ≤ ·) prevTimes lastTimes ∧
        deltas.map UInt64.toNat = (List.range host.cpus).map fun cpu =>
          last.process.trace.ran cpu - prev.process.trace.ran cpu

/-! ## The invariant -/

/-- The core times of a record are what its life had run, and below `2 ^ 64`. -/
def Faithful (cpus : Nat) (record : ProcessRecord Life) : Prop :=
  (∀ times ∈ record.process.coreBusyTimes, times = coreTimes cpus record.process.trace.ran) ∧
    ∀ cpu, record.process.trace.ran cpu < 2 ^ 64

/-- Two neighbouring records with core times are of one life, the later one further on. -/
def Successive (last prev : ProcessRecord Life) : Prop :=
  last.process.coreBusyTimes ≠ none → prev.process.coreBusyTimes ≠ none →
    last.process.trace.birth = prev.process.trace.birth ∧
      ∀ cpu, prev.process.trace.ran cpu ≤ last.process.trace.ran cpu

/-- A record of a life that is still there lies behind what the life has run. -/
def Behind (host : Host) (record : ProcessRecord Life) : Prop :=
  record.process.trace.birth < host.births ∧
    ∀ process ∈ host.processes record.process.pid,
      process.birth = record.process.trace.birth →
        ∀ cpu, record.process.trace.ran cpu ≤ process.ran cpu

structure VectorSound (host : Host) (vector : List (ProcessRecord Life)) : Prop where
  sorted : vector.Pairwise fun a b => b.timestamp ≤ a.timestamp
  faithful : ∀ record ∈ vector, Faithful host.cpus record
  behind : ∀ record ∈ vector, Behind host record
  successive : ∀ last prev older, vector = last :: prev :: older → Successive last prev

structure Sound (host : Host) : Prop where
  born : ∀ pid, ∀ process ∈ host.processes pid, process.birth < host.births
  fits : ∀ pid, ∀ process ∈ host.processes pid, ∀ cpu, process.ran cpu < 2 ^ 64
  vectors : ∀ vector ∈ host.tracker.procs, VectorSound host vector

theorem sound_initial (cpus nbCores maxRecordsPerProcess : Nat) :
    Sound (initial cpus nbCores maxRecordsPerProcess) where
  born := fun _ _ absent => nomatch absent
  fits := fun _ _ absent => nomatch absent
  vectors := fun _ absent => nomatch absent

/-! ## Processes come, run and go -/

/-- Every process of `later` is new, or was there before and has not run less. -/
structure Evolves (host later : Host) : Prop where
  tracker : later.tracker = host.tracker
  cpus : later.cpus = host.cpus
  births : host.births ≤ later.births
  processes : ∀ pid, ∀ process ∈ later.processes pid, process.birth = host.births ∨
    ∃ before ∈ host.processes pid, before.birth = process.birth ∧
      ∀ cpu, before.ran cpu ≤ process.ran cpu

theorem Behind.evolve {host later : Host} (evolves : Evolves host later)
    {record : ProcessRecord Life} (behind : Behind host record) : Behind later record := by
  refine ⟨Nat.lt_of_lt_of_le behind.1 evolves.births, ?_⟩
  intro process isProcess same cpu
  rcases evolves.processes _ process isProcess with new | ⟨before, isBefore, sameBirth, grown⟩
  · have born := behind.1
    omega
  · exact Nat.le_trans (behind.2 before isBefore (sameBirth.trans same) cpu) (grown cpu)

theorem Sound.vectors_of_evolves {host later : Host} (sound : Sound host)
    (evolves : Evolves host later) :
    ∀ vector ∈ later.tracker.procs, VectorSound later vector := by
  intro vector member
  rw [evolves.tracker] at member
  have old := sound.vectors vector member
  refine ⟨old.sorted, ?_, fun record isRecord => (old.behind record isRecord).evolve evolves,
    old.successive⟩
  rw [evolves.cpus]
  exact old.faithful

/-- Changing the process at one pid keeps the invariant when the process is new or only
ran on. -/
theorem Sound.setProcess {host : Host} (sound : Sound host) (pid births : Nat)
    (process : Option KernelProcess) (more : host.births ≤ births)
    (born : ∀ p ∈ process, p.birth < births)
    (fits : ∀ p ∈ process, ∀ cpu, p.ran cpu < 2 ^ 64)
    (origin : ∀ p ∈ process, p.birth = host.births ∨
      ∃ before ∈ host.processes pid, before.birth = p.birth ∧
        ∀ cpu, before.ran cpu ≤ p.ran cpu) :
    Sound { host.setProcess pid process with births := births } := by
  -- Any property of all processes splits into the new one and the others.
  have at_pid : ∀ {P : Nat → KernelProcess → Prop},
      (∀ p ∈ process, P pid p) → (∀ other, ∀ p ∈ host.processes other, P other p) →
        ∀ other, ∀ p ∈ (host.setProcess pid process).processes other, P other p := by
    intro P here elsewhere other p isProcess
    change (if other = pid then process else host.processes other) = some p at isProcess
    split at isProcess
    · rename_i same
      subst same
      exact here p isProcess
    · exact elsewhere other p isProcess
  refine ⟨at_pid born ?_, at_pid fits sound.fits, sound.vectors_of_evolves ⟨rfl, rfl, more, ?_⟩⟩
  · intro other p isProcess
    exact Nat.lt_of_lt_of_le (sound.born other p isProcess) more
  · refine at_pid origin ?_
    intro other p isProcess
    exact Or.inr ⟨p, isProcess, rfl, fun _ => Nat.le_refl _⟩

theorem Sound.spawn {host : Host} (sound : Sound host) (pid : Nat) :
    Sound (host.step (.spawn pid)) := by
  refine sound.setProcess pid (host.births + 1) _ (Nat.le_succ _) ?_ ?_ ?_
  · intro process same
    cases same
    exact Nat.lt_succ_self _
  · intro process same cpu
    cases same
    exact Nat.pow_pos (by decide)
  · intro process same
    cases same
    exact Or.inl rfl

theorem Sound.credit {host : Host} (sound : Sound host) {pid cpu delta : Nat}
    (admissible : Admissible host (.credit pid cpu delta)) :
    Sound (host.step (.credit pid cpu delta)) := by
  cases present : host.processes pid with
  | none =>
      simp only [step, present]
      exact sound
  | some process =>
      simp only [step, present]
      obtain ⟨_, room⟩ := admissible process present
      refine sound.setProcess pid host.births _ (Nat.le_refl _) ?_ ?_ ?_
      · intro later same
        cases same
        exact sound.born pid process present
      · intro later same c
        cases same
        change (if c = cpu then process.ran c + delta else process.ran c) < 2 ^ 64
        split
        · rename_i here
          rw [here]
          exact room
        · exact sound.fits pid process present c
      · intro later same
        cases same
        refine Or.inr ⟨process, present, rfl, fun c => ?_⟩
        change process.ran c ≤ if c = cpu then process.ran c + delta else process.ran c
        split
        · exact Nat.le_add_right _ _
        · exact Nat.le_refl _

theorem Sound.exit {host : Host} (sound : Sound host) (pid : Nat) :
    Sound (host.step (.exit pid)) := by
  have before : ∀ p ∈ (host.processes pid).map fun process =>
      { process with counted := false, exited := true },
      ∃ process ∈ host.processes pid, process.birth = p.birth ∧ process.ran = p.ran := by
    intro p found
    obtain ⟨process, present, rfl⟩ := Option.map_eq_some_iff.mp found
    exact ⟨process, present, rfl, rfl⟩
  refine sound.setProcess pid host.births _ (Nat.le_refl _) ?_ ?_ ?_
  · intro p found
    obtain ⟨process, present, birth, _⟩ := before p found
    rw [← birth]
    exact sound.born pid process present
  · intro p found cpu
    obtain ⟨process, present, _, ran⟩ := before p found
    rw [← ran]
    exact sound.fits pid process present cpu
  · intro p found
    obtain ⟨process, present, birth, ran⟩ := before p found
    exact Or.inr ⟨process, present, birth, fun cpu => Nat.le_of_eq (congrFun ran cpu)⟩

theorem Sound.reap {host : Host} (sound : Sound host) (pid : Nat) :
    Sound (host.step (.reap pid)) := by
  refine sound.setProcess pid host.births none (Nat.le_refl _) ?_ ?_ ?_
  · exact fun _ absent => nomatch absent
  · exact fun _ absent => nomatch absent
  · exact fun _ absent => nomatch absent

/-! ## Records are added and dropped -/

theorem VectorSound.take {host : Host} {vector : List (ProcessRecord Life)}
    (sound : VectorSound host vector) (count : Nat) : VectorSound host (vector.take count) where
  sorted := sound.sorted.sublist (List.take_sublist _ _)
  faithful := fun record member => sound.faithful record (List.mem_of_mem_take member)
  behind := fun record member => sound.behind record (List.mem_of_mem_take member)
  successive := by
    intro last prev older shape
    refine sound.successive last prev (older ++ vector.drop count) ?_
    have whole := List.take_append_drop count vector
    rw [shape] at whole
    exact whole.symm

theorem vectorSound_nil (host : Host) : VectorSound host [] where
  sorted := .nil
  faithful := fun _ absent => nomatch absent
  behind := fun _ absent => nomatch absent
  successive := fun _ _ _ absent => nomatch absent

/-- Whether a vector is sound does not depend on the others. -/
theorem VectorSound.withTracker {host : Host} {vector : List (ProcessRecord Life)}
    (sound : VectorSound host vector) (tracker : ProcessTracker Life) :
    VectorSound { host with tracker := tracker } vector :=
  ⟨sound.sorted, sound.faithful, sound.behind, sound.successive⟩

/-- What a sighting adds is a faithful record that is not ahead of its life. -/
theorem read_sound {host : Host} (sound : Sound host) (sighting : Sighting)
    {process : KernelProcess} (present : process ∈ host.processes sighting.process.pid) :
    Faithful host.cpus ⟨host.read sighting process, sighting.now⟩ ∧
      Behind host ⟨host.read sighting process, sighting.now⟩ := by
  refine ⟨⟨?_, sound.fits _ process present⟩, sound.born _ process present, ?_⟩
  · intro times found
    change (if process.counted && sighting.lookup then _ else none) = some times at found
    split at found
    · cases found
      rfl
    · cases found
  · intro other isOther same cpu
    cases Option.some.inj (present.symm.trans isOther)
    exact Nat.le_refl _

/-- A record may be put on top of a vector that it continues. -/
theorem VectorSound.cons {host : Host} {vector : List (ProcessRecord Life)}
    (sound : VectorSound host vector) {record : ProcessRecord Life}
    (faithful : Faithful host.cpus record) (behind : Behind host record)
    (inTime : ∀ older ∈ vector, older.timestamp ≤ record.timestamp)
    (successive : ∀ newest ∈ vector.head?, Successive record newest) :
    VectorSound host (record :: vector) where
  sorted := List.pairwise_cons.mpr ⟨inTime, sound.sorted⟩
  faithful := by
    intro other member
    rcases List.mem_cons.mp member with rfl | old
    · exact faithful
    · exact sound.faithful other old
  behind := by
    intro other member
    rcases List.mem_cons.mp member with rfl | old
    · exact behind
    · exact sound.behind other old
  successive := by
    intro last prev older shape
    cases shape
    exact successive prev rfl

theorem VectorSound.insertRecord {host : Host} (sound : Sound host) {sighting : Sighting}
    {process : KernelProcess} (present : process ∈ host.processes sighting.process.pid)
    {vector : List (ProcessRecord Life)} (vectorSound : VectorSound host vector)
    (isOf : IsOf sighting.process.pid vector)
    (continues : ∀ newest ∈ vector.head?, newest.process.comm = sighting.process.comm →
      (∀ record ∈ vector, record.timestamp ≤ sighting.now) ∧
        (newest.process.trace.birth = process.birth ∨
          newest.process.coreBusyTimes = none ∨
          (process.counted && sighting.lookup) = false))
    (maxRecords : Nat) :
    VectorSound host (ProcessTracker.insertRecord maxRecords
      ⟨host.read sighting process, sighting.now⟩ vector) := by
  obtain ⟨faithful, behind⟩ := read_sound sound sighting present
  cases vector with
  | nil => exact isOf.elim
  | cons newest older =>
      change newest.process.pid = sighting.process.pid at isOf
      -- The record joins the vector, or starts it anew after another executable.
      have extended : VectorSound host (⟨host.read sighting process, sighting.now⟩ ::
          (if sighting.process.comm ≠ newest.process.comm then [] else newest :: older)) := by
        split
        · refine (vectorSound_nil host).cons faithful behind ?_ ?_
          · exact fun _ absent => nomatch absent
          · exact fun _ absent => nomatch absent
        · rename_i same
          have same : newest.process.comm = sighting.process.comm :=
            (Classical.not_not.mp same).symm
          obtain ⟨inTime, origin⟩ := continues newest rfl same
          refine vectorSound.cons faithful behind inTime ?_
          intro first isFirst
          cases isFirst
          intro lastTimes prevTimes
          rcases origin with sameBirth | noTimes | unread
          · refine ⟨sameBirth.symm, ?_⟩
            have isBehind := vectorSound.behind newest List.mem_cons_self
            exact isBehind.2 process (isOf ▸ present) sameBirth.symm
          · exact absurd noTimes prevTimes
          · refine absurd ?_ lastTimes
            change (if process.counted && sighting.lookup then _ else none) = none
            rw [unread]
            rfl
      change VectorSound host (ProcessTracker.cleanOldProcessRecords
        (⟨host.read sighting process, sighting.now⟩ ::
          (if sighting.process.comm ≠ newest.process.comm then [] else newest :: older)) maxRecords)
      rw [ProcessTracker.cleanOldProcessRecords_of_sorted extended.sorted]
      exact extended.take maxRecords

theorem Sound.observe {host : Host} (sound : Sound host) {sighting : Sighting}
    (continues : Continues host sighting) : Sound (host.observe sighting) := by
  cases present : host.processes sighting.process.pid with
  | none =>
      simp only [Host.observe, present]
      exact sound
  | some process =>
      simp only [Host.observe, present]
      refine ⟨sound.born, sound.fits, ?_⟩
      intro vector member
      obtain ⟨faithful, behind⟩ := read_sound sound sighting present
      apply VectorSound.withTracker
      rcases ProcessTracker.mem_addToVectors member with old | rfl | ⟨old, found, rfl⟩
      · exact sound.vectors vector old
      · refine (vectorSound_nil host).cons faithful behind ?_ ?_
        · exact fun _ absent => nomatch absent
        · exact fun _ absent => nomatch absent
      · have isOf := List.find?_some found
        exact VectorSound.insertRecord sound present
          (sound.vectors old (List.mem_of_find?_eq_some found)) (of_decide_eq_true isOf)
          (continues process present old found) _

theorem Sound.cleanTerminated {host : Host} (sound : Sound host)
    (status : Nat → Option ProcessStatus) :
    Sound (host.step (.cleanTerminated status)) := by
  refine ⟨sound.born, sound.fits, ?_⟩
  intro vector member
  rcases ProcessTracker.mem_cleanTerminated member with rfl | old
  · exact vectorSound_nil _
  · exact (sound.vectors vector old).withTracker _

theorem Sound.step {host : Host} (sound : Sound host) {event : HostEvent}
    (admissible : Admissible host event) (distinguishes : Distinguishes host event) :
    Sound (host.step event) := by
  cases event with
  | spawn pid => exact sound.spawn pid
  | credit pid cpu delta => exact sound.credit admissible
  | exit pid => exact sound.exit pid
  | reap pid => exact sound.reap pid
  | refreshProcs seen =>
      exact invariant_of_meets (fun _ _ ok continues => ok.observe continues) sound distinguishes
  | cleanTerminated status => exact sound.cleanTerminated status

/-! ## What the deltas are -/

theorem forall₂_coreTimes {cpus : Nat} {before after : Nat → Nat}
    (grown : ∀ cpu, before cpu ≤ after cpu) (fits : ∀ cpu, after cpu < 2 ^ 64) :
    List.Forall₂ (· ≤ ·) (coreTimes cpus before) (coreTimes cpus after) := by
  unfold coreTimes
  rw [List.forall₂_map_left_iff, List.forall₂_map_right_iff, List.forall₂_same]
  intro cpu _
  exact ofNat_le_ofNat (grown cpu) (fits cpu)

theorem toNat_zipWith_coreTimes {cpus : Nat} {before after : Nat → Nat}
    (grown : ∀ cpu, before cpu ≤ after cpu) (fits : ∀ cpu, after cpu < 2 ^ 64) :
    ((coreTimes cpus before).zipWith (fun previous current => current - previous)
        (coreTimes cpus after)).map UInt64.toNat =
      (List.range cpus).map fun cpu => after cpu - before cpu := by
  unfold coreTimes
  rw [List.zipWith_map, List.zipWith_self, List.map_map]
  apply List.map_congr_left
  intro cpu _
  exact toNat_ofNat_sub (grown cpu) (fits cpu)

theorem Sound.deltasSound {host : Host} (sound : Sound host) : DeltasSound host := by
  intro pid deltas result
  unfold ProcessTracker.getPerCoreCpuTimeDelta at result
  split at result
  · rename_i last prev older found
    have ok := sound.vectors _ (ProcessTracker.findRecords_mem found).1
    split at result
    · rename_i lastTimes prevTimes hasLast hasPrev
      split at result
      · cases result
        obtain ⟨sameBirth, grown⟩ := ok.successive last prev older rfl
          (by rw [hasLast]; exact Option.some_ne_none _)
          (by rw [hasPrev]; exact Option.some_ne_none _)
        obtain ⟨lastTimesEq, lastFits⟩ := ok.faithful last List.mem_cons_self
        obtain ⟨prevTimesEq, _⟩ := ok.faithful prev (List.mem_cons_of_mem _ List.mem_cons_self)
        refine ⟨last, prev, older, lastTimes, prevTimes, found, hasLast, hasPrev, sameBirth, ?_, ?_⟩
        · rw [lastTimesEq lastTimes hasLast, prevTimesEq prevTimes hasPrev]
          exact forall₂_coreTimes grown lastFits
        · rw [lastTimesEq lastTimes hasLast, prevTimesEq prevTimes hasPrev]
          exact toNat_zipWith_coreTimes grown lastFits
      · cases result
    · cases result
  · cases result

/-- In every run in which no record lands on top of another life's record with the same
executable, and the clock does not step behind a vector's records, every per-core delta is
the time its process ran between the two refreshes. -/
theorem deltasSound_of_distinguishes (cpus nbCores maxRecordsPerProcess : Nat)
    (events : List HostEvent)
    (meets : Meets Host.step (fun host event => Admissible host event ∧ Distinguishes host event)
      (initial cpus nbCores maxRecordsPerProcess) events) :
    Always Host.step DeltasSound (initial cpus nbCores maxRecordsPerProcess) events :=
  always_of_invariant (fun _ _ sound condition => sound.step condition.1 condition.2)
    (fun _ sound => sound.deltasSound) (sound_initial cpus nbCores maxRecordsPerProcess) meets

/-- A sighting of pid 7 running `/bin/sh`. -/
def shellSeen (now : Nat) : Sighting where
  process :=
    { pid := 7
      comm := "/bin/sh".toList
      cpuBusyTime := 0
      nodeBusyTime := 0
      coreBusyTimes := none
      virtualMemory := 0
      memory := 0
      diskRead := 0
      diskWritten := 0
      totalDiskRead := 0
      totalDiskWritten := 0
      trace := () }
  now := now
  lookup := true

/-- The pid is reused after a refresh that no longer saw its old process: the vector was
cleaned in between. -/
theorem deltasSound_of_distinguishes_cleaned :
    Always Host.step DeltasSound (initial 1 1 5)
      [.spawn 7, .credit 7 0 100, .refreshProcs [shellSeen 1], .credit 7 0 20,
        .refreshProcs [shellSeen 2], .exit 7, .reap 7, .spawn 8, .credit 8 0 1,
        .cleanTerminated (fun _ => none), .refreshProcs [], .spawn 7, .credit 7 0 5,
        .refreshProcs [shellSeen 3]] :=
  deltasSound_of_distinguishes 1 1 5 _ (by decide +kernel)

/-- Between two refreshes pid 7 exits and is reused by the same executable: the counter of
the new process is subtracted from, and the result wraps. -/
theorem not_deltasSound_of_same_executable :
    Meets Host.step Admissible (initial 1 1 5)
        [.spawn 7, .credit 7 0 100, .refreshProcs [shellSeen 1], .exit 7, .reap 7,
          .spawn 7, .credit 7 0 5, .refreshProcs [shellSeen 2]] ∧
      ¬ Always Host.step DeltasSound (initial 1 1 5)
        [.spawn 7, .credit 7 0 100, .refreshProcs [shellSeen 1], .exit 7, .reap 7,
          .spawn 7, .credit 7 0 5, .refreshProcs [shellSeen 2]] := by
  refine ⟨by decide +kernel, ?_⟩
  intro always
  obtain ⟨last, prev, older, _, _, found, _, _, sameBirth, _⟩ :=
    always _ List.prefix_rfl 7 [5 - 100] (by decide +kernel)
  have births : ((run Host.step (initial 1 1 5)
      [.spawn 7, .credit 7 0 100, .refreshProcs [shellSeen 1], .exit 7, .reap 7,
        .spawn 7, .credit 7 0 5, .refreshProcs [shellSeen 2]]).tracker.findRecords 7).map
          (List.map fun record => record.process.trace.birth) = some [1, 0] := by
    decide +kernel
  rw [found] at births
  simp only [Option.map_some, List.map_cons, Option.some.injEq, List.cons.injEq] at births
  omega

end Host

end ScaphandreFormal.Sensors
