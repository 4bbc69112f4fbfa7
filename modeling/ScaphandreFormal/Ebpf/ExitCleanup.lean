import ScaphandreFormal.Ebpf.Accounting

/-!
# The exit hook and the reuse of process ids

`process_exit_cleanup` deletes the entries of a process when its last thread
exits, so that the next process with the same id starts from nothing.  The hook
runs while that thread is still on its CPU.  Here the maps run beside the
lifetimes of the processes: which process each thread belongs to, which
processes were cleaned up, and which of their ids no later process has taken
over yet.
-/

namespace ScaphandreFormal.Ebpf

open Foundation

/-! ## Keys of `PID_TIMES` -/

/-- A credit adds the key of its process if there is a free entry. -/
theorem mem_keys_creditPid (maps : Maps) (tgid cpu : Nat) (delta : UInt64) (other : Nat) :
    other ∈ (maps.creditPid tgid cpu delta).pidTimes.keys ↔
      other ∈ maps.pidTimes.keys ∨ other = tgid ∧ maps.pidTimes.keys.length < maxKeys := by
  unfold Maps.creditPid
  cases found : maps.pidTimes.get? tgid cpu with
  | some time =>
      have present := ((PerCpuHashMap.get?_eq_some_iff _ _ _ _).mp found).1
      simp only [PerCpuHashMap.write]
      constructor
      · exact Or.inl
      · rintro (known | ⟨rfl, _⟩)
        · exact known
        · exact present
  | none =>
      have absent := (PerCpuHashMap.get?_eq_none_iff _ _ _).mp found
      simp only [PerCpuHashMap.insert, absent, if_false, not_false_eq_true, true_and]
      split
      · rename_i room
        simp only [List.mem_cons, room, and_true]
        exact Or.comm
      · rename_i full
        simp only [full, and_false, or_false]

/-- How a key that is absent gets into the map: by a credit with a free entry that is not
followed by a removal. -/
theorem mem_keys_step_iff (maps : Maps) (event : Event) {tgid : Nat}
    (absent : tgid ∉ maps.pidTimes.keys) :
    tgid ∈ (step maps event).pidTimes.keys ↔
      (∃ delta, creditOf maps event = some (tgid, delta)) ∧
        maps.pidTimes.keys.length < maxKeys ∧ reapedBy event ≠ some tgid := by
  rw [step_pidTimes]
  cases creditOf maps event with
  | none =>
      cases reapedBy event with
      | none => simp [absent]
      | some dead =>
          have gone : tgid ∉ (maps.pidTimes.remove dead).keys :=
            fun member => absent ((PerCpuHashMap.mem_keys_remove _ _ _).mp member).2
          simp only [gone, reduceCtorEq, exists_false, false_and]
  | some credit =>
      obtain ⟨owner, delta⟩ := credit
      have added : tgid ∈ (maps.creditPid owner event.cpu delta).pidTimes.keys ↔
          owner = tgid ∧ maps.pidTimes.keys.length < maxKeys := by
        rw [mem_keys_creditPid, eq_comm]
        simp only [absent, false_or]
      cases reapedBy event with
      | none => simp [added]
      | some dead =>
          simp only [PerCpuHashMap.mem_keys_remove, added, Option.some.injEq, Prod.mk.injEq,
            exists_eq_right', ne_eq]
          constructor
          · rintro ⟨differs, same, room⟩
            exact ⟨same, room, fun equal => differs equal.symm⟩
          · rintro ⟨same, room, differs⟩
            exact ⟨fun equal => differs equal.symm, same, room⟩

/-! ## Processes that use an id in turn -/

/-- A process id together with the number of processes that were cleaned up under it before. -/
structure Process where
  tgid : Nat
  birth : Nat
  deriving DecidableEq

/-- A schedulable task and the process it belongs to. -/
structure Thread where
  task : Task
  birth : Nat
  deriving DecidableEq

namespace Thread

def idle : Thread := ⟨.idle, 0⟩

def process (thread : Thread) : Process := ⟨thread.task.tgid, thread.birth⟩

/-- The thread belongs to a later process with the id of `old`. -/
def TakesOver (thread : Thread) (old : Process) : Prop :=
  old.tgid = thread.task.tgid ∧ old.birth < thread.birth

instance (thread : Thread) (old : Process) : Decidable (thread.TakesOver old) :=
  inferInstanceAs (Decidable (_ ∧ _))

end Thread

/-- The maps beside the lifetimes of the processes. -/
structure Lifetimes where
  maps : Maps
  /-- The thread on each CPU. -/
  running : Nat → Thread
  /-- The threads whose exit event has been seen. -/
  exited : List Thread
  /-- The processes whose cleanup has run. -/
  cleaned : List Process
  /-- Those of them whose id no later process has been switched in with. -/
  awaiting : List Process
  /-- The ids a later process was first switched in with by the last event. -/
  entering : List Nat
  clock : Nat

/-- One run of an accounting program; a failing kernel read makes it return early. -/
inductive LifeEvent where
  | schedSwitch (now : UInt64) (cpu : Nat) (next : Thread) (readable : Bool)
  | sampleTick (now : UInt64) (cpu : Nat)
  | processExit (now : UInt64) (cpu : Nat) (groupDead : Int) (readable : Bool)
  deriving DecidableEq

namespace LifeEvent

def cpu : LifeEvent → Nat
  | .schedSwitch _ cpu _ _ => cpu
  | .sampleTick _ cpu => cpu
  | .processExit _ cpu _ _ => cpu

def now : LifeEvent → UInt64
  | .schedSwitch now _ _ _ => now
  | .sampleTick now _ => now
  | .processExit now _ _ _ => now

/-- The program gets past its reads of kernel memory. -/
def Readable : LifeEvent → Prop
  | .schedSwitch _ _ _ readable => readable = true
  | .sampleTick _ _ => True
  | .processExit _ _ _ readable => readable = true

/-- The event is an exit that runs the cleanup. -/
def CleansUp : LifeEvent → Prop
  | .processExit _ _ groupDead readable => readable = true ∧ groupDead ≠ 0
  | _ => False

instance : ∀ event : LifeEvent, Decidable event.Readable
  | .schedSwitch _ _ _ readable => inferInstanceAs (Decidable (readable = true))
  | .sampleTick _ _ => inferInstanceAs (Decidable True)
  | .processExit _ _ _ readable => inferInstanceAs (Decidable (readable = true))

instance : ∀ event : LifeEvent, Decidable event.CleansUp
  | .schedSwitch _ _ _ _ => inferInstanceAs (Decidable False)
  | .sampleTick _ _ => inferInstanceAs (Decidable False)
  | .processExit _ _ groupDead readable =>
      inferInstanceAs (Decidable (readable = true ∧ groupDead ≠ 0))

end LifeEvent

namespace Lifetimes

/-- Any maps and any running threads, before the first cleanup. -/
def initial (maps : Maps) (running : Nat → Thread) : Lifetimes :=
  ⟨maps, running, [], [], [], [], 0⟩

/-- What the hook of the event supplies: each program sees the thread of its CPU. -/
def hook (state : Lifetimes) : LifeEvent → Event
  | .schedSwitch now cpu next readable =>
      .schedSwitch now cpu
        (if readable then some (state.running cpu).task.struct else none)
        (if readable then some next.task.struct else none)
  | .sampleTick now cpu => .sampleTick now cpu (state.running cpu).task.struct
  | .processExit now cpu groupDead readable =>
      .processExit now cpu (state.running cpu).task.tgid
        (if readable then some ⟨(state.running cpu).task.tid, groupDead⟩ else none)

def step (state : Lifetimes) (event : LifeEvent) : Lifetimes :=
  let maps := Ebpf.step state.maps (state.hook event)
  match event with
  | .schedSwitch now cpu next _ =>
      { state with
        maps := maps
        running := fun core => if core = cpu then next else state.running core
        awaiting := state.awaiting.filter fun old => ¬ next.TakesOver old
        entering := (state.awaiting.filter fun old => next.TakesOver old).map Process.tgid
        clock := now.toNat }
  | .sampleTick now _ => { state with maps := maps, entering := [], clock := now.toNat }
  | .processExit now cpu _ _ =>
      { state with
        maps := maps
        exited := state.running cpu :: state.exited
        cleaned := if event.CleansUp then (state.running cpu).process :: state.cleaned
          else state.cleaned
        awaiting := if event.CleansUp then (state.running cpu).process :: state.awaiting
          else state.awaiting
        entering := []
        clock := now.toNat }

/-- No id of a cleaned-up process has an entry, up to and including the moment a later
process is first switched in with it. -/
def NoStaleEntry (state : Lifetimes) : Prop :=
  ∀ tgid, tgid ∈ state.awaiting.map Process.tgid ∨ tgid ∈ state.entering →
    tgid ∉ state.maps.pidTimes.keys

/-- The event finds no timestamp in `PID_LAST` for a cleaned-up id, or does no harm with it:
its reads fail, it cleans up itself, or `PID_TIMES` is full. -/
def Quiet (state : Lifetimes) (event : LifeEvent) : Prop :=
  (state.running event.cpu).task.tgid ≠ 0 →
    (state.running event.cpu).task.tgid ∈ state.awaiting.map Process.tgid →
      (state.running event.cpu).task.tgid ∈ state.maps.pidLast.keys →
        ¬ event.Readable ∨ event.CleansUp ∨ maxKeys ≤ state.maps.pidTimes.keys.length

instance (state : Lifetimes) (event : LifeEvent) : Decidable (state.Quiet event) :=
  inferInstanceAs (Decidable (_ → _ → _ → _))

/-- What the kernel guarantees of an event: time does not go backwards, a thread is on one CPU
at a time and exits once, and an id is used again only after its process was cleaned up.  An
exited thread may run on, be sampled, and be switched off and on again. -/
def Allowed (cpus : Nat) (state : Lifetimes) (event : LifeEvent) : Prop :=
  event.cpu < cpus ∧ state.clock ≤ event.now.toNat ∧
    match event with
    | .schedSwitch _ cpu next _ =>
        next = .idle ∨
          (∀ other, other < cpus → other ≠ cpu → state.running other ≠ next) ∧
            next.birth ≤ (state.cleaned.filter fun old => old.tgid = next.task.tgid).length
    | .sampleTick _ _ => True
    | .processExit _ cpu _ _ => state.running cpu ≠ .idle ∧ state.running cpu ∉ state.exited

instance (cpus : Nat) (state : Lifetimes) : ∀ event, Decidable (state.Allowed cpus event)
  | .schedSwitch _ _ _ _ => inferInstanceAs (Decidable (_ ∧ _ ∧ (_ ∨
      (∀ other, other < cpus → _) ∧ _)))
  | .sampleTick _ _ => inferInstanceAs (Decidable (_ ∧ _ ∧ True))
  | .processExit _ _ _ _ => inferInstanceAs (Decidable (_ ∧ _ ∧ _ ∧ _))

/-! ## When a stale entry appears -/

theorem lastOf_entry (maps : Maps) (key cpu : Nat) (now : UInt64) (tgid : Nat) :
    (∃ delta, (maps.pidLast.get? key cpu).map (fun last => (key, now - last)) =
        some (tgid, delta)) ↔ tgid = key ∧ tgid ∈ maps.pidLast.keys := by
  unfold PerCpuHashMap.get?
  by_cases present : key ∈ maps.pidLast.keys
  · simp only [present, if_true, Option.map_some, Option.some.injEq, Prod.mk.injEq,
      exists_and_left, exists_eq', and_true]
    constructor
    · rintro rfl
      exact ⟨rfl, present⟩
    · rintro ⟨rfl, _⟩
      rfl
  · simp only [present, if_false, Option.map_none, reduceCtorEq, exists_false, false_iff]
    rintro ⟨rfl, member⟩
    exact present member

/-- A handler credits the process with this id just when it has an entry in `PID_LAST`. -/
theorem creditOf_entry (maps : Maps) (key cpu : Nat) (now : UInt64) (tgid : Nat) :
    (∃ delta, (if key = 0 then none
        else (maps.pidLast.get? key cpu).map fun last => (key, now - last)) =
          some (tgid, delta)) ↔ tgid ≠ 0 ∧ tgid = key ∧ tgid ∈ maps.pidLast.keys := by
  split
  · rename_i idle
    simp only [reduceCtorEq, exists_false, false_iff]
    rintro ⟨user, rfl, _⟩
    exact user idle
  · rename_i user
    rw [lastOf_entry]
    constructor
    · rintro ⟨rfl, member⟩
      exact ⟨user, rfl, member⟩
    · exact fun found => found.2

/-- Each program credits the process of the thread on its CPU, if `PID_LAST` has a
timestamp of it. -/
theorem creditOf_hook (state : Lifetimes) (event : LifeEvent) (tgid : Nat) :
    (∃ delta, creditOf state.maps (state.hook event) = some (tgid, delta)) ↔
      event.Readable ∧ tgid ≠ 0 ∧ tgid = (state.running event.cpu).task.tgid ∧
        tgid ∈ state.maps.pidLast.keys := by
  have counted (cpu : Nat) (now : UInt64) (credit : Option (Nat × UInt64))
      (credits : credit = if (state.running cpu).task.tgid = 0 then none
        else (state.maps.pidLast.get? (state.running cpu).task.tgid cpu).map
          fun last => ((state.running cpu).task.tgid, now - last)) :
      (∃ delta, credit = some (tgid, delta)) ↔
        tgid ≠ 0 ∧ tgid = (state.running cpu).task.tgid ∧ tgid ∈ state.maps.pidLast.keys := by
    rw [credits]
    exact creditOf_entry state.maps _ cpu now tgid
  cases event with
  | schedSwitch now cpu next readable =>
      cases readable with
      | false => simp [hook, creditOf, LifeEvent.Readable]
      | true =>
          simp only [LifeEvent.Readable, LifeEvent.cpu, true_and]
          exact counted cpu now _ (creditOf_switch state.maps now cpu _ next.task)
  | sampleTick now cpu =>
      simp only [LifeEvent.Readable, LifeEvent.cpu, true_and]
      exact counted cpu now _ (creditOf_tick state.maps now cpu _)
  | processExit now cpu groupDead readable =>
      cases readable with
      | false => simp [hook, creditOf, LifeEvent.Readable]
      | true =>
          simp only [LifeEvent.Readable, LifeEvent.cpu, true_and]
          refine counted cpu now _ ?_
          simp only [hook, if_true, creditOf, ne_eq, ← (state.running cpu).task.idle_iff, and_self]
          split <;> simp_all

theorem reapedBy_hook (state : Lifetimes) (event : LifeEvent) (tgid : Nat) :
    reapedBy (state.hook event) = some tgid ↔
      event.CleansUp ∧ tgid = (state.running event.cpu).task.tgid := by
  cases event with
  | schedSwitch now cpu next readable => simp [hook, reapedBy, LifeEvent.CleansUp]
  | sampleTick now cpu => simp [hook, reapedBy, LifeEvent.CleansUp]
  | processExit now cpu groupDead readable =>
      cases readable with
      | false => simp [hook, reapedBy, LifeEvent.CleansUp]
      | true =>
          simp only [hook, reapedBy, LifeEvent.CleansUp, LifeEvent.cpu, if_true, true_and]
          by_cases dead : groupDead ≠ 0
          · rw [if_pos dead, Option.some.injEq]
            exact ⟨fun same => ⟨dead, same.symm⟩, fun both => both.2.symm⟩
          · simp [dead]

@[simp]
theorem step_maps (state : Lifetimes) (event : LifeEvent) :
    (state.step event).maps = Ebpf.step state.maps (state.hook event) := by
  cases event <;> rfl

/-- The ids watched after an event: those awaited before it and the one it cleans up. -/
theorem watched_step (state : Lifetimes) (event : LifeEvent) (tgid : Nat) :
    (tgid ∈ (state.step event).awaiting.map Process.tgid ∨
        tgid ∈ (state.step event).entering) ↔
      tgid ∈ state.awaiting.map Process.tgid ∨ reapedBy (state.hook event) = some tgid := by
  rw [reapedBy_hook]
  cases event with
  | schedSwitch now cpu next readable =>
      simp only [step, LifeEvent.CleansUp, false_and, or_false, List.mem_map, List.mem_filter,
        decide_eq_true_eq]
      constructor
      · rintro (⟨old, ⟨member, _⟩, same⟩ | ⟨old, ⟨member, _⟩, same⟩)
        · exact ⟨old, member, same⟩
        · exact ⟨old, member, same⟩
      · rintro ⟨old, member, same⟩
        by_cases taken : next.TakesOver old
        · exact Or.inr ⟨old, ⟨member, taken⟩, same⟩
        · exact Or.inl ⟨old, ⟨member, taken⟩, same⟩
  | sampleTick now cpu => simp [step, LifeEvent.CleansUp]
  | processExit now cpu groupDead readable =>
      simp only [step, List.not_mem_nil, or_false]
      by_cases cleans : (LifeEvent.processExit now cpu groupDead readable).CleansUp
      · simp only [cleans, if_true, true_and, List.map_cons, List.mem_cons, LifeEvent.cpu]
        exact Or.comm
      · simp [cleans]

/-- One event leaves no stale entry just when it is quiet. -/
theorem noStaleEntry_step_iff (state : Lifetimes) (event : LifeEvent)
    (holds : state.NoStaleEntry) :
    (state.step event).NoStaleEntry ↔ state.Quiet event := by
  have absent : ∀ tgid ∈ state.awaiting.map Process.tgid, tgid ∉ state.maps.pidTimes.keys :=
    fun tgid member => holds tgid (Or.inl member)
  unfold NoStaleEntry Quiet
  simp only [watched_step, step_maps]
  constructor
  · intro clean user awaited stamped
    have kept := clean _ (Or.inl awaited)
    rw [mem_keys_step_iff _ _ (absent _ awaited), creditOf_hook] at kept
    by_contra harm
    push Not at harm
    obtain ⟨readable, cleans, room⟩ := harm
    refine kept ⟨⟨readable, user, rfl, stamped⟩, room, fun reaped => ?_⟩
    exact cleans ((reapedBy_hook _ _ _).mp reaped).1
  · rintro quiet tgid watched
    by_cases reaped : reapedBy (state.hook event) = some tgid
    · rw [step_pidTimes, reaped]
      exact fun member => ((PerCpuHashMap.mem_keys_remove _ _ _).mp member).1 rfl
    · have awaited := watched.resolve_right reaped
      rw [mem_keys_step_iff _ _ (absent _ awaited), creditOf_hook]
      rintro ⟨⟨readable, user, rfl, stamped⟩, room, _⟩
      rcases quiet user awaited stamped with failed | cleans | full
      · exact failed readable
      · exact reaped ((reapedBy_hook _ _ _).mpr ⟨cleans, rfl⟩)
      · omega

/-- A run never shows an entry of a cleaned-up process under an id not yet taken over just
when all its events are quiet. -/
theorem always_noStaleEntry_iff_quiet (maps : Maps) (running : Nat → Thread)
    (events : List LifeEvent) :
    Always step NoStaleEntry (initial maps running) events ↔
      Meets step Quiet (initial maps running) events := by
  apply always_iff_meets
  · exact fun state event holds => noStaleEntry_step_iff state event holds
  · rintro tgid (member | member)
    · exact absurd member List.not_mem_nil
    · exact absurd member List.not_mem_nil

/-- The last thread of process 7 exits, is sampled once more on its way out and leaves its
CPU: the sample stamps `PID_LAST` again and the final switch creates the entry anew. -/
theorem not_noStaleEntry_of_sampled_exit :
    let thread : Thread := ⟨⟨7, 7, by decide⟩, 0⟩
    let events : List LifeEvent :=
      [.schedSwitch 10 0 thread true, .processExit 20 0 1 true, .sampleTick 30 0,
        .schedSwitch 40 0 .idle true]
    let start := initial .empty (fun _ => .idle)
    Meets step (Allowed 1) start events ∧
      (run step start events).awaiting = [thread.process] ∧
      (run step start events).maps.pidTimes.get? 7 0 = some 10 ∧
      ¬ Always step NoStaleEntry start events := by
  intro thread events start
  have left : (run step start events).awaiting = [thread.process] := by decide
  have entry : (run step start events).maps.pidTimes.get? 7 0 = some 10 := by decide
  refine ⟨by decide, left, entry, ?_⟩
  intro always
  refine always events (List.prefix_refl _) 7 (Or.inl ?_) ?_
  · rw [left]
    decide
  · exact ((PerCpuHashMap.get?_eq_some_iff _ _ _ _).mp entry).1

end Lifetimes

end ScaphandreFormal.Ebpf
