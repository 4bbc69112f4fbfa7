import ScaphandreFormal.Ebpf.CpuState
import ScaphandreFormal.Ebpf.MapsInStep

/-!
# Idle and activation windows

Every socket has its own `cpu_state_tick` handler, but all of them share
`CPU_SNAPSHOT`.  A `Watch` carries, beside the maps, what an observer of the
machine knows: for each handler the CPUs that ran a task and the CPUs whose
`CPU_TIME` grew since that handler's previous run, and the CPUs whose
`CPU_TIME` grew since the latest run of any handler.  A report speaks about
the first window; the handler can only see the second.
-/

namespace ScaphandreFormal.Ebpf

open Foundation

/-- What happened since the previous run of one handler. -/
structure Window where
  ran : List Nat
  grown : List Nat
  deriving DecidableEq, Repr

structure Watch where
  maps : Maps
  /-- The window of each handler, absent before its first run. -/
  window : Nat → Option Window
  /-- The CPUs whose `CPU_TIME` grew since the latest run of any handler. -/
  fresh : List Nat

/-- A CPU runs a task that is not the idle task, an accounting program adds to
`CPU_TIME[cpu]`, user space drains the ring buffer, or a handler runs. -/
inductive StateEvent where
  | ran (cpu : Nat)
  | credit (cpu : Nat) (delta : UInt64)
  | drain
  | tick (handler : Nat)
  deriving DecidableEq, Repr

namespace Watch

/-- Note in every open window that `cpu` ran a task. -/
def noteRan (watch : Watch) (cpu : Nat) : Watch :=
  { watch with
    window := fun handler =>
      (watch.window handler).map fun window => { window with ran := cpu :: window.ran } }

/-- Note that `CPU_TIME[cpu]` grew. -/
def noteGrown (watch : Watch) (cpu : Nat) : Watch :=
  { watch with
    window := fun handler =>
      (watch.window handler).map fun window => { window with grown := cpu :: window.grown }
    fresh := cpu :: watch.fresh }

/-- The time added to `CPU_TIME[cpu]` was spent in a task running up to now, so the CPU
also ran one. -/
def step (watch : Watch) : StateEvent → Watch
  | .ran cpu => watch.noteRan cpu
  | .credit cpu delta =>
      let credited := { watch with maps := watch.maps.creditCpu cpu delta }
      if delta = 0 then credited
      else if cpu < maxCpu then (credited.noteRan cpu).noteGrown cpu
      else credited.noteRan cpu
  | .drain => { watch with maps := { watch.maps with cpuStateEvents := .empty } }
  | .tick handler =>
      { maps := cpuStateTick watch.maps
        window := fun other => if other = handler then some ⟨[], []⟩ else watch.window other
        fresh := [] }

/-- The watch as the loader leaves it. -/
def initial (machine : Machine) : Watch where
  maps := machine.loaded
  window := fun _ => none
  fresh := []

/-- What the events of a run may be: counters stay below `2 ^ 64`, only attached handlers
run, and in a handler's window `CPU_TIME` grew for every CPU that ran a task. -/
def Admissible (machine : Machine) (watch : Watch) : StateEvent → Prop
  | .ran _ => True
  | .credit cpu delta => (watch.maps.cpuTime.values cpu).toNat + delta.toNat < 2 ^ 64
  | .drain => True
  | .tick handler =>
      handler ∈ machine.stateTickCpus ∧
        ∀ window ∈ watch.window handler, ∀ cpu ∈ window.ran, cpu ∈ window.grown

/-- What an event says about its socket, for the window the report is about. -/
def Holds (machine : Machine) (window : Window) (event : CpuStateEvent) : Prop :=
  match event.eventType with
  | .idleEvent => ∀ cpu ∈ window.ran, ¬ machine.HasCpu event.socketId cpu
  | .activationEvent => ∃! cpu, cpu ∈ window.ran ∧ machine.HasCpu event.socketId cpu

/-- Every event a handler submits holds for the window since its own previous run. -/
def Truthful (machine : Machine) (watch : Watch) : StateEvent → Prop
  | .tick handler =>
      ∀ window ∈ watch.window handler, ∀ event ∈ submitted watch.maps,
        Holds machine window event
  | _ => True

/-- The scan gets to two CPUs of the socket whose `CPU_TIME` grew since the latest run of
any handler, so that neither kind of event applies. -/
def SeenBusy (machine : Machine) (watch : Watch) (socket : Nat) : Prop :=
  ∃ first ∈ watch.fresh, ∃ second ∈ watch.fresh, first ≠ second ∧
    (machine.HasCpu socket first ∧ watch.maps.Reached first) ∧
    (machine.HasCpu socket second ∧ watch.maps.Reached second)

/-- When a handler runs, each socket is seen busy, or all its CPUs that ran a task since
that handler's previous run are CPUs the scan gets to and whose `CPU_TIME` grew after the
latest run of any other handler. -/
def Visible (machine : Machine) (watch : Watch) : StateEvent → Prop
  | .tick handler =>
      ∀ window ∈ watch.window handler, ∀ socket < maxSocket,
        SeenBusy machine watch socket ∨
          ∀ cpu ∈ window.ran, machine.HasCpu socket cpu →
            cpu ∈ watch.fresh ∧ watch.maps.Reached cpu
  | _ => True

instance (machine : Machine) (watch : Watch) (event : StateEvent) :
    Decidable (Admissible machine watch event) :=
  match event with
  | .ran _ => isTrue trivial
  | .credit _ _ => inferInstanceAs (Decidable (_ < _))
  | .drain => isTrue trivial
  | .tick handler => inferInstanceAs (Decidable (_ ∧ ∀ window ∈ watch.window handler, _))

instance (machine : Machine) (watch : Watch) (socket : Nat) :
    Decidable (SeenBusy machine watch socket) :=
  inferInstanceAs (Decidable (∃ first ∈ watch.fresh, ∃ second ∈ watch.fresh, _))

instance (machine : Machine) (watch : Watch) (event : StateEvent) :
    Decidable (Visible machine watch event) :=
  match event with
  | .ran _ => isTrue trivial
  | .credit _ _ => isTrue trivial
  | .drain => isTrue trivial
  | .tick handler =>
      inferInstanceAs (Decidable (∀ window ∈ watch.window handler, ∀ socket < maxSocket, _))

/-! ## The invariant -/

/-- The snapshot is an earlier value of `CPU_TIME`, it differs from it for the CPUs with
fresh growth only, and fresh growth lies in the window of every handler. -/
structure Consistent (machine : Machine) (watch : Watch) : Prop where
  describes : machine.Describes watch.maps.cpuToSocket
  behind : ∀ cpu, (watch.maps.cpuSnapshot.values cpu).toNat ≤
    (watch.maps.cpuTime.values cpu).toNat
  fresh_inside : ∀ cpu ∈ watch.fresh, cpu < maxCpu
  fresh_iff : ∀ cpu < maxCpu, cpu ∈ watch.fresh ↔
    watch.maps.cpuTime.values cpu ≠ watch.maps.cpuSnapshot.values cpu
  fresh_ran : ∀ handler, ∀ window ∈ watch.window handler, ∀ cpu ∈ watch.fresh,
    cpu ∈ window.ran

theorem consistent_initial (machine : Machine) : Consistent machine (initial machine) where
  describes := machine.describes_loaded
  behind := fun _ => Nat.le_refl _
  fresh_inside := fun _ member => nomatch member
  fresh_iff := by
    intro cpu inside
    change cpu ∈ [] ↔ (0 : UInt64) ≠ 0
    simp
  fresh_ran := fun _ _ none => nomatch none

theorem Consistent.noteRan {machine : Machine} {watch : Watch}
    (consistent : Consistent machine watch) (cpu : Nat) :
    Consistent machine (watch.noteRan cpu) where
  describes := consistent.describes
  behind := consistent.behind
  fresh_inside := consistent.fresh_inside
  fresh_iff := consistent.fresh_iff
  fresh_ran := by
    intro handler window isWindow other isFresh
    obtain ⟨old, isOld, rfl⟩ := Option.map_eq_some_iff.mp isWindow
    exact List.mem_cons_of_mem _ (consistent.fresh_ran handler old isOld other isFresh)

theorem creditCpu_of_outside {maps : Maps} {cpu : Nat} (outside : ¬ cpu < maxCpu)
    (delta : UInt64) : maps.creditCpu cpu delta = maps := by
  rw [Maps.creditCpu, BpfArray.get?, if_neg outside]

theorem creditCpu_zero (maps : Maps) (cpu core : Nat) :
    (maps.creditCpu cpu 0).cpuTime.values core = maps.cpuTime.values core := by
  by_cases inside : cpu < maxCpu
  · rw [Maps.creditCpu_values inside]
    split
    · rename_i same
      rw [same]
      simp
    · rfl
  · rw [creditCpu_of_outside inside]

theorem creditCpu_unshared (maps : Maps) (cpu : Nat) (delta : UInt64) :
    (maps.creditCpu cpu delta).cpuSnapshot = maps.cpuSnapshot ∧
      (maps.creditCpu cpu delta).cpuToSocket = maps.cpuToSocket := by
  unfold Maps.creditCpu
  split <;> exact ⟨rfl, rfl⟩

/-- Maps that agree on the three arrays keep the invariant. -/
theorem Consistent.of_maps {machine : Machine} {watch : Watch}
    (consistent : Consistent machine watch) {maps : Maps}
    (time : ∀ cpu, maps.cpuTime.values cpu = watch.maps.cpuTime.values cpu)
    (snapshot : maps.cpuSnapshot = watch.maps.cpuSnapshot)
    (sockets : maps.cpuToSocket = watch.maps.cpuToSocket) :
    Consistent machine { watch with maps := maps } where
  describes := by
    rw [sockets]
    exact consistent.describes
  behind := by
    intro cpu
    rw [time, snapshot]
    exact consistent.behind cpu
  fresh_inside := consistent.fresh_inside
  fresh_iff := by
    intro cpu inside
    rw [time, snapshot]
    exact consistent.fresh_iff cpu inside
  fresh_ran := consistent.fresh_ran

/-- Real growth makes `CPU_TIME` differ from the snapshot, since it only ever rises. -/
theorem Consistent.grow {machine : Machine} {watch : Watch}
    (consistent : Consistent machine watch) {cpu : Nat} (inside : cpu < maxCpu)
    {delta : UInt64} (positive : delta ≠ 0)
    (fits : (watch.maps.cpuTime.values cpu).toNat + delta.toNat < 2 ^ 64) :
    Consistent machine
      (({ watch with maps := watch.maps.creditCpu cpu delta } : Watch).noteRan cpu
        |>.noteGrown cpu) := by
  obtain ⟨snapshot, sockets⟩ := creditCpu_unshared watch.maps cpu delta
  have raised := toNat_add_of_fits fits
  have positive : 0 < delta.toNat := by
    rw [Nat.pos_iff_ne_zero]
    intro zero
    exact positive (UInt64.toNat_inj.mp (by simpa using zero))
  have behind := consistent.behind
  refine ⟨?_, ?_, ?_, ?_, ?_⟩
  · change machine.Describes (watch.maps.creditCpu cpu delta).cpuToSocket
    rw [sockets]
    exact consistent.describes
  · intro core
    change ((watch.maps.creditCpu cpu delta).cpuSnapshot.values core).toNat ≤
      ((watch.maps.creditCpu cpu delta).cpuTime.values core).toNat
    rw [snapshot, Maps.creditCpu_values inside]
    split
    · rename_i same
      have old := behind cpu
      rw [same]
      omega
    · exact behind core
  · intro core isFresh
    rcases List.mem_cons.mp isFresh with rfl | old
    · exact inside
    · exact consistent.fresh_inside core old
  · intro core coreInside
    change core ∈ cpu :: watch.fresh ↔ (watch.maps.creditCpu cpu delta).cpuTime.values core ≠
      (watch.maps.creditCpu cpu delta).cpuSnapshot.values core
    rw [snapshot, Maps.creditCpu_values inside, List.mem_cons]
    split
    · rename_i same
      have old := behind cpu
      rw [same]
      refine ⟨fun _ unchanged => ?_, fun _ => Or.inl rfl⟩
      have same := congrArg UInt64.toNat unchanged
      omega
    · rename_i differs
      rw [← consistent.fresh_iff core coreInside]
      exact ⟨fun member => member.resolve_left differs, Or.inr⟩
  · intro handler window isWindow core isFresh
    obtain ⟨middle, isMiddle, rfl⟩ := Option.map_eq_some_iff.mp isWindow
    obtain ⟨old, isOld, rfl⟩ := Option.map_eq_some_iff.mp isMiddle
    rcases List.mem_cons.mp isFresh with rfl | earlier
    · exact List.mem_cons_self
    · exact List.mem_cons_of_mem _ (consistent.fresh_ran handler old isOld core earlier)

theorem Consistent.credit {machine : Machine} {watch : Watch}
    (consistent : Consistent machine watch) (cpu : Nat) (delta : UInt64)
    (fits : (watch.maps.cpuTime.values cpu).toNat + delta.toNat < 2 ^ 64) :
    Consistent machine (watch.step (.credit cpu delta)) := by
  obtain ⟨snapshot, sockets⟩ := creditCpu_unshared watch.maps cpu delta
  rw [step]
  split
  · rename_i zero
    subst zero
    exact consistent.of_maps (fun core => creditCpu_zero watch.maps cpu core) snapshot sockets
  · rename_i positive
    split
    · rename_i inside
      exact consistent.grow inside positive fits
    · rename_i outside
      rw [creditCpu_of_outside outside]
      exact consistent.noteRan cpu

/-- A run of any handler empties the fresh growth and opens its own window anew. -/
theorem Consistent.tick {machine : Machine} {watch : Watch}
    (consistent : Consistent machine watch) (handler : Nat) :
    Consistent machine (watch.step (.tick handler)) where
  describes := by
    rw [step, cpuStateTick_cpuToSocket]
    exact consistent.describes
  behind := by
    intro cpu
    rw [step, cpuStateTick_cpuTime]
    by_cases inside : cpu < maxCpu
    · rw [cpuStateTick_snapshot watch.maps inside]
    · rw [cpuStateTick_snapshot_outside watch.maps inside]
      exact consistent.behind cpu
  fresh_inside := fun _ member => nomatch member
  fresh_iff := by
    intro cpu inside
    rw [step, cpuStateTick_cpuTime, cpuStateTick_snapshot watch.maps inside]
    simp
  fresh_ran := fun _ _ _ _ member => nomatch member

theorem Consistent.step {machine : Machine} {watch : Watch}
    (consistent : Consistent machine watch) {event : StateEvent}
    (admissible : Admissible machine watch event) :
    Consistent machine (watch.step event) := by
  cases event with
  | ran cpu => exact consistent.noteRan cpu
  | credit cpu delta => exact consistent.credit cpu delta admissible
  | drain => exact consistent.of_maps (fun _ => rfl) rfl rfl
  | tick handler => exact consistent.tick handler

/-! ## What a report says -/

/-- The CPUs counted for a socket are those of its CPUs with fresh growth that the scan
gets to. -/
theorem Consistent.mem_activeCpus {machine : Machine} {watch : Watch}
    (consistent : Consistent machine watch) (socket cpu : Nat) :
    cpu ∈ watch.maps.activeCpus socket ↔
      machine.HasCpu socket cpu ∧ cpu ∈ watch.fresh ∧ watch.maps.Reached cpu := by
  rw [Maps.mem_activeCpus]
  constructor
  · rintro ⟨reached, mapped, changed⟩
    have used : watch.maps.cpuToSocket.values cpu ≠ 0 := by omega
    obtain ⟨package, hasCpu, entry⟩ := consistent.describes cpu used
    have same : package = socket := by omega
    subst same
    exact ⟨hasCpu, (consistent.fresh_iff cpu reached.1).mpr changed, reached⟩
  · rintro ⟨hasCpu, isFresh, reached⟩
    obtain ⟨package, described, entry⟩ :=
      consistent.describes cpu (reached.2 cpu (Nat.le_refl _))
    have same : package = socket := Option.some.inj (described.2.symm.trans hasCpu.2)
    subst same
    exact ⟨reached, entry, (consistent.fresh_iff cpu reached.1).mp isFresh⟩

/-- A socket seen busy counts two CPUs or more. -/
theorem Consistent.two_le_activeCpus {machine : Machine} {watch : Watch}
    (consistent : Consistent machine watch) {socket : Nat}
    (busy : SeenBusy machine watch socket) : 2 ≤ (watch.maps.activeCpus socket).length := by
  obtain ⟨first, firstFresh, second, secondFresh, differs, hasFirst, hasSecond⟩ := busy
  have firstActive := (consistent.mem_activeCpus socket first).mpr
    ⟨hasFirst.1, firstFresh, hasFirst.2⟩
  have secondActive := (consistent.mem_activeCpus socket second).mpr
    ⟨hasSecond.1, secondFresh, hasSecond.2⟩
  cases active : watch.maps.activeCpus socket with
  | nil =>
      rw [active] at firstActive
      cases firstActive
  | cons head tail =>
      cases tail with
      | nil =>
          rw [active, List.mem_singleton] at firstActive secondActive
          exact absurd (firstActive.trans secondActive.symm) differs
      | cons next rest =>
          simp only [List.length_cons]
          omega

/-- Where the CPUs of a socket that ran are all visible, the counted CPUs are those that
ran. -/
theorem Consistent.mem_activeCpus_of_visible {machine : Machine} {watch : Watch}
    (consistent : Consistent machine watch) {handler : Nat} {window : Window}
    (isWindow : window ∈ watch.window handler) {socket : Nat}
    (visible : ∀ cpu ∈ window.ran, machine.HasCpu socket cpu →
      cpu ∈ watch.fresh ∧ watch.maps.Reached cpu) (cpu : Nat) :
    cpu ∈ watch.maps.activeCpus socket ↔ cpu ∈ window.ran ∧ machine.HasCpu socket cpu := by
  rw [consistent.mem_activeCpus]
  constructor
  · rintro ⟨hasCpu, isFresh, _⟩
    exact ⟨consistent.fresh_ran handler window isWindow cpu isFresh, hasCpu⟩
  · rintro ⟨ran, hasCpu⟩
    exact ⟨hasCpu, visible cpu ran hasCpu⟩

theorem Consistent.truthful {machine : Machine} {watch : Watch}
    (consistent : Consistent machine watch) {event : StateEvent}
    (visible : Visible machine watch event) : Truthful machine watch event := by
  cases event with
  | ran cpu => trivial
  | credit cpu delta => trivial
  | drain => trivial
  | tick handler =>
      intro window isWindow report isSubmitted
      have count := activeCpus_of_submitted isSubmitted
      have inside := (calledFor_of_submitted isSubmitted).1
      rcases visible window isWindow report.socketId inside with busy | allVisible
      · have many := consistent.two_le_activeCpus busy
        rw [count] at many
        cases kind : report.eventType with
        | idleEvent =>
            rw [kind] at many
            exact absurd many (by decide)
        | activationEvent =>
            rw [kind] at many
            exact absurd many (by decide)
      · have active := consistent.mem_activeCpus_of_visible isWindow allVisible
        unfold Holds
        cases kind : report.eventType with
        | idleEvent =>
            rw [kind] at count
            intro cpu ran hasCpu
            have counted := (active cpu).mpr ⟨ran, hasCpu⟩
            rw [List.length_eq_zero_iff.mp count] at counted
            cases counted
        | activationEvent =>
            rw [kind] at count
            obtain ⟨only, single⟩ := List.length_eq_one_iff.mp count
            refine ⟨only, (active only).mp (single ▸ List.mem_singleton_self only), ?_⟩
            intro other ran
            have counted := (active other).mpr ran
            rw [single] at counted
            exact List.mem_singleton.mp counted

/-- In every run in which each handler run sees what happened since its own previous run,
every idle event is about a socket none of whose CPUs ran a task in that time, and every
activation event about one of which exactly one did. -/
theorem truthful_of_visible (machine : Machine) (events : List StateEvent)
    (meets : Meets step (fun watch event =>
      Admissible machine watch event ∧ Visible machine watch event) (initial machine) events) :
    Meets step (Truthful machine) (initial machine) events := by
  refine meets_of_invariant (Consistent machine) ?_ ?_
    (consistent_initial machine) meets
  · intro watch event consistent condition
    exact consistent.step condition.1
  · intro watch event consistent condition
    exact consistent.truthful condition.2

/-- A machine with two sockets of one CPU each. -/
def twoSockets : Machine where
  onlineCpus := [0, 1]
  physicalPackageId := fun cpu => some cpu

theorem truthful_of_visible_two_sockets :
    Meets step (Truthful twoSockets) (initial twoSockets)
      [.tick 0, .tick 1, .ran 0, .credit 0 5, .tick 0] :=
  truthful_of_visible twoSockets _ (by decide +kernel)

/-- Socket 1's handler runs between the activity on CPU 0 and the run of socket 0's
handler, which then reports socket 0 idle. -/
theorem not_truthful_of_interleaved_tick :
    Meets step (Admissible twoSockets) (initial twoSockets)
        [.tick 0, .tick 1, .ran 0, .credit 0 5, .tick 1, .tick 0] ∧
      ¬ Meets step (Truthful twoSockets) (initial twoSockets)
        [.tick 0, .tick 1, .ran 0, .credit 0 5, .tick 1, .tick 0] := by
  refine ⟨by decide +kernel, ?_⟩
  rintro ⟨_, _, _, _, _, truthful, _⟩
  have false_idle := truthful ⟨[0, 0], [0]⟩ (by decide +kernel) ⟨0, .idleEvent⟩
    (by decide +kernel) 0 (by decide) (by decide)
  exact false_idle

end Watch

end ScaphandreFormal.Ebpf
