import ScaphandreFormal.Foundation.BpfMap
import ScaphandreFormal.Foundation.Word64

/-!
# The eBPF programs

The four programs of `scaphandre-ebpf/src/main.rs` as functions on the maps
they share.  Each takes what its hook supplies: the time `bpf_ktime_get_ns`
returns, the CPU it runs on, and the tasks or tracepoint arguments it reads.
A read that fails makes the program return its error code before it touches a
map, so a failed read is an absent argument and the maps are returned as they
are.
-/

namespace ScaphandreFormal.Ebpf

open Foundation

def maxKeys : Nat := 32768

def maxCpu : Nat := 256

def maxSocket : Nat := 64

/-- The bytes one `CpuStateEvent` takes in the ring buffer: an eight-byte header and the
eight bytes of the event. -/
def ringRecordBytes : Nat := 16

/-- `CPU_STATE_EVENTS` has 256 KB, of which at most all but one byte are ever in use. -/
def ringCapacity : Nat := (256 * 1024 - 1) / ringRecordBytes

inductive CpuEventType where
  | activationEvent
  | idleEvent
  deriving DecidableEq, Repr

/-- A statement about every kind of event is one about the two. -/
instance (holds : CpuEventType → Prop) [DecidablePred holds] :
    Decidable (∀ kind, holds kind) :=
  decidable_of_iff (holds .activationEvent ∧ holds .idleEvent)
    ⟨fun both kind => match kind with
      | .activationEvent => both.1
      | .idleEvent => both.2, fun all => ⟨all _, all _⟩⟩

structure CpuStateEvent where
  socketId : Nat
  eventType : CpuEventType
  deriving DecidableEq, Repr

/-- The two fields of `task_struct` that the programs read: `tgid` is the process, `pid`
the thread. -/
structure TaskStruct where
  tgid : Nat
  pid : Nat
  deriving DecidableEq, Repr

/-- The two fields of the tracepoint's record that `try_process_exit` uses. -/
structure SchedProcessExitArgs where
  pid : Nat
  groupDead : Int
  deriving DecidableEq, Repr

structure Maps where
  pidTimes : PerCpuHashMap Nat UInt64 maxKeys
  pidLast : PerCpuHashMap Nat UInt64 maxKeys
  cpuTime : BpfArray UInt64 maxCpu
  cpuSnapshot : BpfArray UInt64 maxCpu
  cpuStateEvents : RingBuf CpuStateEvent ringCapacity
  cpuToSocket : BpfArray Nat maxCpu

namespace Maps

/-- The maps as the loader creates them. -/
def empty : Maps where
  pidTimes := .empty
  pidLast := .empty
  cpuTime := .empty
  cpuSnapshot := .empty
  cpuStateEvents := .empty
  cpuToSocket := .empty

/-- Add `delta` to `PID_TIMES[tgid]` on `cpu`, or insert it when the process is new. -/
def creditPid (maps : Maps) (tgid cpu : Nat) (delta : UInt64) : Maps :=
  match maps.pidTimes.get? tgid cpu with
  | some time => { maps with pidTimes := maps.pidTimes.write tgid cpu (time + delta) }
  | none => { maps with pidTimes := maps.pidTimes.insert tgid cpu delta }

/-- Add `delta` to `CPU_TIME[cpu]`. -/
def creditCpu (maps : Maps) (cpu : Nat) (delta : UInt64) : Maps :=
  match maps.cpuTime.get? cpu with
  | some time => { maps with cpuTime := maps.cpuTime.set cpu (time + delta) }
  | none => maps

end Maps

/-! ## CPU time accounting -/

def trySchedSwitch (now : UInt64) (cpu : Nat) (prev next : Option TaskStruct) (maps : Maps) :
    Maps :=
  match prev, next with
  | some prev, some next =>
      -- Time of the task that was switched off; the idle task is skipped.
      let accumulated :=
        if prev.tgid ≠ 0 ∧ prev.pid ≠ 0 then
          match maps.pidLast.get? prev.tgid cpu with
          | some lastTimestamp =>
              let delta := now - lastTimestamp
              let credited := maps.creditPid prev.tgid cpu delta
              let forgotten := { credited with pidLast := credited.pidLast.remove prev.tgid }
              forgotten.creditCpu cpu delta
          | none => maps
        else maps
      { accumulated with pidLast := accumulated.pidLast.insert next.tgid cpu now }
  | _, _ => maps

def sampleTick (now : UInt64) (cpu : Nat) (current : TaskStruct) (maps : Maps) : Maps :=
  if current.tgid = 0 ∨ current.pid = 0 then maps
  else
    match maps.pidLast.get? current.tgid cpu with
    | some last =>
        let delta := now - last
        let credited := (maps.creditPid current.tgid cpu delta).creditCpu cpu delta
        { credited with pidLast := credited.pidLast.write current.tgid cpu now }
    | none => { maps with pidLast := maps.pidLast.insert current.tgid cpu now }

def tryProcessExit (now : UInt64) (cpu tgid : Nat) (args : Option SchedProcessExitArgs)
    (maps : Maps) : Maps :=
  match args with
  | none => maps
  | some args =>
      let closed :=
        if tgid ≠ 0 ∧ args.pid ≠ 0 then
          match maps.pidLast.get? tgid cpu with
          | some last =>
              let delta := now - last
              let credited := (maps.creditPid tgid cpu delta).creditCpu cpu delta
              { credited with pidLast := credited.pidLast.remove tgid }
          | none => maps
        else maps
      if args.groupDead ≠ 0 then
        { closed with
          pidTimes := closed.pidTimes.remove tgid
          pidLast := closed.pidLast.remove tgid }
      else closed

/-! ## Idle and activation detection -/

/-- `u32::MAX`, the mark of a socket without CPUs in `socket_active_cpus`. -/
def noCpuSeen : Nat := 2 ^ 32 - 1

/-- One CPU of socket `index` has been visited; the array has `maxSocket` cells. -/
def visitCpu (counts : Nat → Nat) (index : Nat) (active : Bool) : Nat → Nat :=
  if index < maxSocket then
    let seen := if counts index = noCpuSeen then 0 else counts index
    fun socket => if socket = index then (if active then seen + 1 else seen) else counts socket
  else counts

/-- The first loop of `cpu_state_tick`, which stops at the first CPU without a socket. -/
def countActive (maps : Maps) : List Nat → (Nat → Nat) → Nat → Nat
  | [], counts => counts
  | cpu :: rest, counts =>
      match maps.cpuSnapshot.get? cpu, maps.cpuTime.get? cpu, maps.cpuToSocket.get? cpu with
      | some old, some new, some socket =>
          if socket = 0 then counts
          else countActive maps rest (visitCpu counts (socket - 1) (new - old != 0))
      | _, _, _ => countActive maps rest counts

/-- The second loop, which stops at the first socket no CPU was seen of. -/
def reportSockets (counts : Nat → Nat) :
    List Nat → RingBuf CpuStateEvent ringCapacity → RingBuf CpuStateEvent ringCapacity
  | [], ring => ring
  | socket :: rest, ring =>
      if counts socket = noCpuSeen then ring
      else if counts socket = 0 then
        reportSockets counts rest (ring.submit ⟨socket, .idleEvent⟩)
      else if counts socket = 1 then
        reportSockets counts rest (ring.submit ⟨socket, .activationEvent⟩)
      else reportSockets counts rest ring

/-- The third loop, which copies `CPU_TIME` into `CPU_SNAPSHOT`. -/
def takeSnapshot (maps : Maps) : List Nat → BpfArray UInt64 maxCpu → BpfArray UInt64 maxCpu
  | [], snapshot => snapshot
  | cpu :: rest, snapshot =>
      match maps.cpuTime.get? cpu with
      | some time => takeSnapshot maps rest (snapshot.set cpu time)
      | none => takeSnapshot maps rest snapshot

def cpuStateTick (maps : Maps) : Maps :=
  let counts := countActive maps (List.range maxCpu) (fun _ => noCpuSeen)
  { maps with
    cpuStateEvents := reportSockets counts (List.range maxSocket) maps.cpuStateEvents
    cpuSnapshot := takeSnapshot maps (List.range maxCpu) maps.cpuSnapshot }

/-! ## The accounting programs as one step function -/

/-- One run of an accounting program, with what its hook supplies. -/
inductive Event where
  | schedSwitch (now : UInt64) (cpu : Nat) (prev next : Option TaskStruct)
  | sampleTick (now : UInt64) (cpu : Nat) (current : TaskStruct)
  | processExit (now : UInt64) (cpu tgid : Nat) (args : Option SchedProcessExitArgs)
  deriving DecidableEq, Repr

namespace Event

/-- The CPU the program runs on. -/
def cpu : Event → Nat
  | .schedSwitch _ cpu _ _ => cpu
  | .sampleTick _ cpu _ => cpu
  | .processExit _ cpu _ _ => cpu

end Event

def step (maps : Maps) : Event → Maps
  | .schedSwitch now cpu prev next => trySchedSwitch now cpu prev next maps
  | .sampleTick now cpu current => sampleTick now cpu current maps
  | .processExit now cpu tgid args => tryProcessExit now cpu tgid args maps

end ScaphandreFormal.Ebpf
