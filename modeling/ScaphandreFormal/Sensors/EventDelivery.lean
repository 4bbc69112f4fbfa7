import ScaphandreFormal.Foundation.Trace
import ScaphandreFormal.Sensors.Background

/-!
# Delivery of the CPU state events

A refresh groups the drained events by package id and then takes out the group
of each socket.  A group whose id no socket has is taken out by nobody: it stays
in the buffer of the topology for the whole run.
-/

namespace ScaphandreFormal.Sensors

open Foundation Ebpf

variable {F Trace : Type} [Float64 F]

namespace Topology

def socketIds (topology : Topology F Trace) : List Nat :=
  topology.sockets.map CPUSocket.id

/-- Grouping appends the events of each id in arrival order. -/
theorem refreshActivationIdleRecords_eq (drained : List CpuStateEvent)
    (buffer : Nat → List CpuStateEvent) (id : Nat) :
    refreshActivationIdleRecords drained buffer id =
      buffer id ++ drained.filter (·.socketId = id) := by
  induction drained generalizing buffer with
  | nil => simp [refreshActivationIdleRecords]
  | cons event rest ih =>
      change refreshActivationIdleRecords rest _ id = _
      rw [ih, List.filter_cons]
      by_cases own : id = event.socketId
      · simp [own]
      · simp [own, Ne.symm own]

/-- With distinct ids each socket gets the whole group of its id. -/
theorem getActivationIdleRecords_fst {ids : List Nat} (distinct : ids.Nodup)
    (buffer : Nat → List CpuStateEvent) :
    (getActivationIdleRecords ids buffer).1 = ids.map buffer := by
  induction ids generalizing buffer with
  | nil => rfl
  | cons id rest ih =>
      obtain ⟨fresh, distinctRest⟩ := List.nodup_cons.mp distinct
      rw [getActivationIdleRecords]
      simp only [ih distinctRest, List.map_cons]
      congr 1
      apply List.map_congr_left
      intro other member
      rw [if_neg]
      rintro rfl
      exact fresh member

/-- What stays are the groups of the other ids. -/
theorem getActivationIdleRecords_snd (ids : List Nat) (buffer : Nat → List CpuStateEvent)
    (id : Nat) :
    (getActivationIdleRecords ids buffer).2 id = if id ∈ ids then [] else buffer id := by
  induction ids generalizing buffer with
  | nil => rfl
  | cons first rest ih =>
      rw [getActivationIdleRecords]
      simp only [ih]
      by_cases later : id ∈ rest
      · simp [later]
      · by_cases here : id = first
        · simp [here]
        · simp [later, here]

theorem activationIdleBuffer_refresh (topology : Topology F Trace)
    (input : RefreshInput F Trace) :
    (topology.refresh input).activationIdleBuffer = (topology.batches input.drained).2 := by
  unfold refresh refreshRecord refreshCpuTimeRecord
  cases input.cpuTime with
  | none => rfl
  | some map => rfl

theorem socketIds_refresh (topology : Topology F Trace) (input : RefreshInput F Trace) :
    (topology.refresh input).socketIds = topology.socketIds := by
  have keeps (socket : CPUSocket F) (now : Nat) (records : List CpuStateEvent)
      (reading : SocketReading) (cores : Nat → CoreRecord F) :
      ((socket.refresh now records reading).refreshCores cores).id = socket.id := by
    obtain ⟨domains, cpuCores, same⟩ :=
      socket.refreshCores_refresh_eq now records reading cores
    simp only [same, CPUSocket.refreshRecord]
    split
    · rfl
    · rfl
  apply List.ext_getElem?
  intro index
  rw [socketIds, socketIds, List.getElem?_map, List.getElem?_map, getElem?_refresh,
    Option.map_map]
  congr 1
  funext socket
  exact keeps socket _ _ _ _

/-! ## Exactly once -/

/-- No event waits in the buffer of the topology. -/
def Delivered (topology : Topology F Trace) : Prop :=
  ∀ id, topology.activationIdleBuffer id = []

/-- The refresh passes every event it drains to exactly the one socket with the id of the
event, each socket being refreshed on its own in the order of arrival, and keeps none back. -/
def DeliversOnce (topology : Topology F Trace) (input : RefreshInput F Trace) : Prop :=
  (∀ event ∈ input.drained, ∃! index : Nat, ∃ socket : CPUSocket F,
    topology.sockets[index]? = some socket ∧ socket.id = event.socketId) ∧
  (∀ (index : Nat) (socket : CPUSocket F), topology.sockets[index]? = some socket →
    (topology.refresh input).sockets[index]? =
      some ((socket.refresh input.now (input.drained.filter (·.socketId = socket.id))
        (input.socketReading index)).refreshCores (input.coreReading index))) ∧
  (topology.refresh input).Delivered

/-- Every event drained is of a package that has a socket. -/
def Addressed (topology : Topology F Trace) (input : RefreshInput F Trace) : Prop :=
  ∀ event ∈ input.drained, event.socketId ∈ topology.socketIds

theorem delivered_refresh_iff {topology : Topology F Trace} (delivered : topology.Delivered)
    (input : RefreshInput F Trace) :
    (topology.refresh input).Delivered ↔ topology.Addressed input := by
  have kept (id : Nat) : (topology.refresh input).activationIdleBuffer id =
      if id ∈ topology.socketIds then [] else input.drained.filter (·.socketId = id) := by
    rw [activationIdleBuffer_refresh, batches, getActivationIdleRecords_snd,
      refreshActivationIdleRecords_eq, delivered id, List.nil_append]
    rfl
  unfold Delivered
  simp only [kept]
  constructor
  · intro empty event member
    by_contra foreign
    have waiting := empty event.socketId
    rw [if_neg foreign, List.filter_eq_nil_iff] at waiting
    exact waiting event member (by simp)
  · intro addressed id
    split
    · rfl
    · rename_i foreign
      rw [List.filter_eq_nil_iff]
      intro event member own
      have same : event.socketId = id := by simpa using own
      exact foreign (same ▸ addressed event member)

omit [Float64 F] in
theorem batchOf_eq {topology : Topology F Trace} (distinct : topology.socketIds.Nodup)
    (delivered : topology.Delivered) (drained : List CpuStateEvent) {index : Nat}
    {socket : CPUSocket F} (atIndex : topology.sockets[index]? = some socket) :
    topology.batchOf drained index = drained.filter (·.socketId = socket.id) := by
  change ((getActivationIdleRecords topology.socketIds _).1[index]?).getD [] = _
  rw [getActivationIdleRecords_fst distinct, socketIds, List.map_map, List.getElem?_map,
    atIndex, Option.map_some, Option.getD_some, Function.comp_apply,
    refreshActivationIdleRecords_eq, delivered socket.id, List.nil_append]

/-- With distinct ids and nothing waiting, each socket is refreshed on its own events. -/
theorem refresh_own {topology : Topology F Trace} (distinct : topology.socketIds.Nodup)
    (delivered : topology.Delivered) (input : RefreshInput F Trace) {index : Nat}
    {socket : CPUSocket F} (atIndex : topology.sockets[index]? = some socket) :
    (topology.refresh input).sockets[index]? =
      some ((socket.refresh input.now (input.drained.filter (·.socketId = socket.id))
        (input.socketReading index)).refreshCores (input.coreReading index)) := by
  rw [getElem?_refresh, atIndex, Option.map_some,
    batchOf_eq distinct delivered input.drained atIndex]

/-- From an empty buffer, a refresh delivers exactly once just when every event drained is of
a package that has a socket. -/
theorem deliversOnce_iff {topology : Topology F Trace} (distinct : topology.socketIds.Nodup)
    (delivered : topology.Delivered) (input : RefreshInput F Trace) :
    topology.DeliversOnce input ↔ topology.Addressed input := by
  constructor
  · intro once
    exact (delivered_refresh_iff delivered input).mp once.2.2
  · intro addressed
    refine ⟨?_, fun index socket atIndex => refresh_own distinct delivered input atIndex,
      (delivered_refresh_iff delivered input).mpr addressed⟩
    intro event member
    obtain ⟨socket, listed, same⟩ := List.mem_map.mp (addressed event member)
    obtain ⟨index, atIndex⟩ := List.mem_iff_getElem?.mp listed
    refine ⟨index, ⟨socket, atIndex, same⟩, ?_⟩
    rintro other ⟨otherSocket, atOther, otherSame⟩
    have named : topology.socketIds[index]? = some event.socketId := by
      rw [socketIds, List.getElem?_map, atIndex, Option.map_some, same]
    have otherNamed : topology.socketIds[other]? = some event.socketId := by
      rw [socketIds, List.getElem?_map, atOther, Option.map_some, otherSame]
    exact (List.getElem?_inj (List.getElem?_eq_some_iff.mp otherNamed).1 distinct).mp
      (otherNamed.trans named.symm)

/-- Over a whole run every refresh delivers exactly once just when no refresh drains an event
of a package without a socket. -/
theorem meets_deliversOnce_iff_addressed {topology : Topology F Trace}
    (distinct : topology.socketIds.Nodup) (delivered : topology.Delivered)
    (inputs : List (RefreshInput F Trace)) :
    Meets refresh DeliversOnce topology inputs ↔
      ∀ input ∈ inputs, ∀ event ∈ input.drained, event.socketId ∈ topology.socketIds := by
  induction inputs generalizing topology with
  | nil => simp
  | cons input rest ih =>
      rw [meets_cons, deliversOnce_iff distinct delivered, List.forall_mem_cons]
      refine and_congr_right fun addressed => ?_
      have deliveredNext := (delivered_refresh_iff delivered input).mpr addressed
      rw [ih (by rw [socketIds_refresh]; exact distinct) deliveredNext, socketIds_refresh]

/-- Two sockets whose events arrive mixed. -/
theorem meets_deliversOnce_iff_addressed_two_sockets :
    let twoSockets : Topology ExactFloat Unit :=
      { Observed.oneSocket with
        sockets := Observed.oneSocket.sockets ++
          Observed.oneSocket.sockets.map fun socket => { socket with id := 1 } }
    Meets refresh DeliversOnce twoSockets
      [Observed.refreshAt 1 0 [], Observed.refreshAt 2 10 [],
        { Observed.refreshAt 3 20 [] with
          drained := [⟨1, .idleEvent⟩, ⟨0, .idleEvent⟩, ⟨1, .activationEvent⟩] },
        { Observed.refreshAt 4 35 [] with drained := [⟨0, .activationEvent⟩] }] :=
  (meets_deliversOnce_iff_addressed (by decide) (fun _ => rfl) _).mpr (by decide)

/-- A machine with a package 1 that has no socket: the event of each refresh joins those of
the refreshes before it in the buffer. -/
theorem not_meets_deliversOnce_of_foreign_package :
    let input : RefreshInput ExactFloat Unit :=
      { Observed.refreshAt 1 0 [] with drained := [⟨1, .idleEvent⟩] }
    Observed.oneSocket.socketIds.Nodup ∧ Observed.oneSocket.Delivered ∧
      (run refresh Observed.oneSocket [input, input]).activationIdleBuffer 1 =
        [⟨1, .idleEvent⟩, ⟨1, .idleEvent⟩] ∧
      ¬ Meets refresh DeliversOnce Observed.oneSocket [input] := by
  intro input
  refine ⟨by decide, fun _ => rfl, by decide +kernel, ?_⟩
  rintro ⟨once, _⟩
  have waiting : (Observed.oneSocket.refresh input).activationIdleBuffer 1 =
      [⟨1, .idleEvent⟩] := by
    decide +kernel
  rw [once.2.2 1] at waiting
  cases waiting

end Topology

end ScaphandreFormal.Sensors
