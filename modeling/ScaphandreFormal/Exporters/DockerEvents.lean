import ScaphandreFormal.Foundation.Trace

/-!
# Watching docker

`gen_process_metrics` keeps a list of containers and asks docker for the events
since its last check before it lists them again.  The window of a query ends at a
time read before the requests, and the next one starts at a time read after them;
both are cut to seconds, and the start moves on whether the requests succeeded or
not.  An event in between is not asked for by any query.
-/

namespace ScaphandreFormal.Exporters

open Foundation

def nanosPerSec : Nat := 10 ^ 9

/-- `as_secs()` of a time in nanoseconds. -/
def asSecs (nanos : Nat) : Nat := nanos / nanosPerSec

/-- The docker daemon: the times at which its events happen, and what it returns for a
window of seconds. -/
structure Docker where
  happens : Nat → Prop
  getEvents : Nat → Nat → List Nat
  /-- A query returns the events of the window, both ends included. -/
  mem_getEvents : ∀ since upTo time, time ∈ getEvents since upTo ↔
    happens time ∧ since * nanosPerSec ≤ time ∧ time ≤ upTo * nanosPerSec

/-- The docker part of the generator.  `containersLastCheck` is absent where the source has
the empty text.  The containers are represented by the times at which they were listed,
`clock` is the last reading of the clock and `started` that of the start of the last call. -/
structure DockerWatch where
  watchDocker : Bool
  containersLastCheck : Option Nat
  listings : List Nat
  clock : Nat
  started : Nat
  deriving DecidableEq, Repr

/-- What one call meets: the clock at its start, when `get_containers` has returned, and at
its end; and which of the requests succeed if they are made. -/
structure DockerCall where
  start : Nat
  listed : Nat
  finish : Nat
  versionSucceeds : Bool
  eventsSucceed : Bool
  containersSucceed : Bool
  deriving DecidableEq, Repr

namespace DockerWatch

/-- The state of `MetricGenerator::new` with a docker client. -/
def new : DockerWatch := ⟨true, none, [], 0, 0⟩

/-- `gen_docker_containers_basic_metadata`. -/
def genDockerContainersBasicMetadata (call : DockerCall) (watch : DockerWatch) : DockerWatch :=
  if watch.watchDocker && call.containersSucceed then
    { watch with
      listings := watch.listings ++ [call.listed]
      containersLastCheck := some (asSecs call.listed) }
  else watch

/-- The requests of a call, up to the last assignment. -/
def makeRequests (docker : Docker) (watch : DockerWatch) (call : DockerCall) : DockerWatch :=
  match watch.containersLastCheck with
  | none =>
      if call.versionSucceeds then watch.genDockerContainersBasicMetadata call
      else { watch with watchDocker := false }
  | some lastCheck =>
      if call.eventsSucceed then
        if (docker.getEvents lastCheck (asSecs call.start)).isEmpty then watch
        else watch.genDockerContainersBasicMetadata call
      else watch

/-- The docker part of `gen_process_metrics`. -/
def genProcessMetrics (docker : Docker) (watch : DockerWatch) (call : DockerCall) : DockerWatch :=
  let requested :=
    if watch.watchDocker then
      { watch.makeRequests docker call with containersLastCheck := some (asSecs call.finish) }
    else watch
  { requested with clock := call.finish, started := call.start }

/-- The clock does not go backwards. -/
def InOrder (watch : DockerWatch) (call : DockerCall) : Prop :=
  watch.clock ≤ call.start ∧ call.start ≤ call.listed ∧ call.listed ≤ call.finish
  deriving Decidable

/-- Every request that the call makes succeeds. -/
def AllSucceed (docker : Docker) (watch : DockerWatch) (call : DockerCall) : Prop :=
  watch.watchDocker = true →
    match watch.containersLastCheck with
    | none => call.versionSucceeds = true ∧ call.containersSucceed = true
    | some lastCheck => call.eventsSucceed = true ∧
        (docker.getEvents lastCheck (asSecs call.start) ≠ [] → call.containersSucceed = true)

/-- If the requests of the call succeed then every event up to its start, from the first
listing on, has been followed by a listing. -/
def NoEventLost (docker : Docker) (watch : DockerWatch) (call : DockerCall) : Prop :=
  AllSucceed docker watch call →
    ∀ event, docker.happens event →
      (∃ first ∈ (watch.genProcessMetrics docker call).listings.head?, first < event) →
        event ≤ call.start →
          ∃ listed ∈ (watch.genProcessMetrics docker call).listings, event ≤ listed

/-- The call lists the containers. -/
def lists (docker : Docker) (watch : DockerWatch) (call : DockerCall) : Bool :=
  watch.watchDocker && call.containersSucceed &&
    match watch.containersLastCheck with
    | none => call.versionSucceeds
    | some lastCheck =>
        call.eventsSucceed && !(docker.getEvents lastCheck (asSecs call.start)).isEmpty

/-- The first listing before or in the call. -/
def firstListing (docker : Docker) (watch : DockerWatch) (call : DockerCall) : Option Nat :=
  watch.listings.head?.or (if watch.lists docker call then some call.listed else none)

/-- For the events behind the first listing that no earlier listing follows: the requests of
the call succeed where one lies in the window that it queries, and one that lies behind the
second in which the call starts and is not followed by a listing of the call lies behind
the start itself and not before the second in which the call ends. -/
def Unbroken (docker : Docker) (watch : DockerWatch) (call : DockerCall) : Prop :=
  ∀ first ∈ watch.firstListing docker call, ∀ event, docker.happens event → first < event →
    (∀ listed ∈ watch.listings, listed < event) →
      (event ≤ asSecs call.start * nanosPerSec →
        ∀ lastCheck ∈ watch.containersLastCheck, lastCheck * nanosPerSec ≤ event →
          call.eventsSucceed = true ∧ call.containersSucceed = true) ∧
      (asSecs call.start * nanosPerSec < event →
        (watch.lists docker call = true → call.listed < event) →
          call.start < event ∧ asSecs call.finish * nanosPerSec ≤ event)

/-! ## One call -/

section Call

variable {docker : Docker} {watch : DockerWatch} {call : DockerCall}

theorem listings_genProcessMetrics :
    (watch.genProcessMetrics docker call).listings =
      watch.listings ++ if watch.lists docker call then [call.listed] else [] := by
  cases watching : watch.watchDocker with
  | false => simp [genProcessMetrics, lists, watching]
  | true =>
      cases checked : watch.containersLastCheck with
      | none =>
          simp only [genProcessMetrics, makeRequests, lists, genDockerContainersBasicMetadata,
            watching, checked]
          cases call.versionSucceeds <;> cases call.containersSucceed <;> simp
      | some lastCheck =>
          simp only [genProcessMetrics, makeRequests, lists, genDockerContainersBasicMetadata,
            watching, checked]
          cases call.eventsSucceed <;> cases call.containersSucceed <;>
            cases (docker.getEvents lastCheck (asSecs call.start)).isEmpty <;> simp

theorem head?_listings_genProcessMetrics :
    (watch.genProcessMetrics docker call).listings.head? = watch.firstListing docker call := by
  rw [listings_genProcessMetrics, List.head?_append, firstListing]
  split <;> rfl

theorem containersLastCheck_genProcessMetrics :
    (watch.genProcessMetrics docker call).containersLastCheck =
      if watch.watchDocker then some (asSecs call.finish) else watch.containersLastCheck := by
  unfold genProcessMetrics
  cases watch.watchDocker <;> rfl

/-- Docker is watched until the first request of the first call fails. -/
theorem watchDocker_genProcessMetrics (watching : watch.watchDocker = true)
    (answered : watch.containersLastCheck = none → call.versionSucceeds = true) :
    (watch.genProcessMetrics docker call).watchDocker = true := by
  have listed : (watch.genDockerContainersBasicMetadata call).watchDocker = true := by
    unfold genDockerContainersBasicMetadata
    split <;> exact watching
  simp only [genProcessMetrics, watching, if_true, makeRequests]
  split
  · rename_i unchecked
    rw [if_pos (answered unchecked)]
    exact listed
  · split
    · split
      · exact watching
      · exact listed
    · exact watching

/-- What holds between calls.  Once the containers were listed docker is watched, and each
event behind the first listing is followed by a listing, or lies behind the start of the
last call and in the part of time that is still to be queried. -/
structure Covered (docker : Docker) (watch : DockerWatch) : Prop where
  unlisted : watch.containersLastCheck = none → watch.listings = []
  watching : watch.listings ≠ [] → watch.watchDocker = true
  events : ∀ first ∈ watch.listings.head?, ∀ event, docker.happens event → first < event →
    (∃ listed ∈ watch.listings, event ≤ listed) ∨
      watch.started < event ∧ ∀ lastCheck ∈ watch.containersLastCheck,
        lastCheck * nanosPerSec ≤ event

theorem covered_new (docker : Docker) : Covered docker new where
  unlisted := fun _ => rfl
  watching := fun listed => absurd rfl listed
  events := fun _ absent => nomatch absent

theorem asSecs_mul_le (nanos : Nat) : asSecs nanos * nanosPerSec ≤ nanos :=
  Nat.div_mul_le_self _ _

/-- An event in the queried window makes a call list the containers when its requests
succeed. -/
theorem lists_of_event {lastCheck event : Nat} (watching : watch.watchDocker = true)
    (checked : watch.containersLastCheck = some lastCheck)
    (succeed : call.eventsSucceed = true ∧ call.containersSucceed = true)
    (happens : docker.happens event) (since : lastCheck * nanosPerSec ≤ event)
    (upTo : event ≤ asSecs call.start * nanosPerSec) : watch.lists docker call = true := by
  have returned := (docker.mem_getEvents lastCheck (asSecs call.start) event).mpr
    ⟨happens, since, upTo⟩
  have nonempty : (docker.getEvents lastCheck (asSecs call.start)).isEmpty = false := by
    rw [List.isEmpty_eq_false_iff]
    exact List.ne_nil_of_mem returned
  simp [lists, watching, checked, succeed.1, succeed.2, nonempty]

/-- An event in the queried window that no listing follows was queried for without
success. -/
theorem not_mem_window {event : Nat} (covered : Covered docker watch)
    (inOrder : InOrder watch call) (unbroken : Unbroken docker watch call)
    (first : Nat) (isFirst : first ∈ watch.firstListing docker call) (later : first < event)
    (happens : docker.happens event) (unfollowed : ∀ listed ∈ watch.listings, listed < event)
    (unlisted : watch.lists docker call = true → call.listed < event) :
    asSecs call.start * nanosPerSec < event := by
  by_contra inWindow
  rw [Nat.not_lt] at inWindow
  have notListed : watch.lists docker call = false := by
    by_contra lists
    have behind := unlisted (Bool.not_eq_false _ ▸ lists)
    have := asSecs_mul_le call.start
    obtain ⟨_, beforeListing, _⟩ := inOrder
    omega
  have isHead : first ∈ watch.listings.head? := by
    simpa [firstListing, notListed] using isFirst
  have listedBefore : watch.listings ≠ [] := by
    intro empty
    rw [empty] at isHead
    exact nomatch isHead
  cases checked : watch.containersLastCheck with
  | none => exact listedBefore (covered.unlisted checked)
  | some lastCheck =>
      have since : lastCheck * nanosPerSec ≤ event := by
        obtain ⟨listed, isListed, follows⟩ | ⟨_, open'⟩ :=
          covered.events first isHead event happens later
        · exact absurd (unfollowed listed isListed) (Nat.not_lt.mpr follows)
        · exact open' lastCheck checked
      have succeed := (unbroken first isFirst event happens later unfollowed).1 inWindow
        lastCheck checked since
      have lists := lists_of_event (covered.watching listedBefore) checked succeed happens
        since inWindow
      rw [notListed] at lists
      exact nomatch lists

theorem watchDocker_of_firstListing (covered : Covered docker watch) {first : Nat}
    (isFirst : first ∈ watch.firstListing docker call) : watch.watchDocker = true := by
  cases lists : watch.lists docker call with
  | true =>
      simp only [DockerWatch.lists, Bool.and_eq_true] at lists
      exact lists.1.1
  | false =>
      refine covered.watching ?_
      intro empty
      simp [firstListing, lists, empty] at isFirst

/-- In a run whose calls meet the condition each call leaves every event covered. -/
theorem Covered.next (covered : Covered docker watch) (inOrder : InOrder watch call)
    (unbroken : Unbroken docker watch call) :
    Covered docker (watch.genProcessMetrics docker call) where
  unlisted := by
    intro unchecked
    rw [containersLastCheck_genProcessMetrics] at unchecked
    cases watching : watch.watchDocker with
    | true => simp [watching] at unchecked
    | false =>
        simp only [watching, Bool.false_eq_true, if_false] at unchecked
        rw [listings_genProcessMetrics, covered.unlisted unchecked]
        simp [lists, watching]
  watching := by
    intro listed
    rw [listings_genProcessMetrics] at listed
    cases lists : watch.lists docker call with
    | true =>
        simp only [DockerWatch.lists, Bool.and_eq_true] at lists
        refine watchDocker_genProcessMetrics lists.1.1 ?_
        intro unchecked
        simpa [unchecked] using lists.2
    | false =>
        simp only [lists, Bool.false_eq_true, if_false, List.append_nil] at listed
        refine watchDocker_genProcessMetrics (covered.watching listed) ?_
        intro unchecked
        exact absurd (covered.unlisted unchecked) listed
  events := by
    intro first isFirst event happens later
    rw [head?_listings_genProcessMetrics] at isFirst
    by_cases followed : ∃ listed ∈ (watch.genProcessMetrics docker call).listings, event ≤ listed
    · exact .inl followed
    · right
      rw [listings_genProcessMetrics] at followed
      have unfollowed : ∀ listed ∈ watch.listings, listed < event := by
        intro listed isListed
        refine Nat.not_le.mp fun bound => followed ⟨listed, ?_, bound⟩
        exact List.mem_append_left _ isListed
      have unlisted : watch.lists docker call = true → call.listed < event := by
        intro lists
        exact Nat.not_le.mp fun bound => followed ⟨call.listed, by simp [lists], bound⟩
      have behind := not_mem_window covered inOrder unbroken first isFirst later happens
        unfollowed unlisted
      obtain ⟨behindStart, behindEnd⟩ :=
        (unbroken first isFirst event happens later unfollowed).2 behind unlisted
      refine ⟨behindStart, ?_⟩
      intro lastCheck checked
      rw [containersLastCheck_genProcessMetrics,
        if_pos (watchDocker_of_firstListing covered isFirst)] at checked
      cases checked
      exact behindEnd

theorem Covered.noEventLost (covered : Covered docker watch) (inOrder : InOrder watch call)
    (unbroken : Unbroken docker watch call) : NoEventLost docker watch call := by
  rintro _ event happens ⟨first, isFirst, later⟩ byStart
  obtain followed | ⟨behindStart, _⟩ :=
    (covered.next inOrder unbroken).events first isFirst event happens later
  · exact followed
  · have : call.start < event := behindStart
    omega

end Call

/-! ## Whole runs -/

/-- In every run whose calls meet the condition no docker event is lost. -/
theorem noEventLost_of_unbroken (docker : Docker) (calls : List DockerCall)
    (meets : Meets (genProcessMetrics docker)
      (fun watch call => InOrder watch call ∧ Unbroken docker watch call) new calls) :
    Meets (genProcessMetrics docker) (NoEventLost docker) new calls := by
  refine meets_of_invariant (Covered docker) ?_ ?_ (covered_new docker) meets
  · intro watch call covered met
    exact covered.next met.1 met.2
  · intro watch call covered met
    exact covered.noEventLost met.1 met.2

/-- A docker daemon with the events of a list. -/
def daemon (times : List Nat) : Docker where
  happens := fun time => time ∈ times
  getEvents := fun since upTo => times.filter fun time =>
    since * nanosPerSec ≤ time ∧ time ≤ upTo * nanosPerSec
  mem_getEvents := by simp

/-- A call whose requests would all succeed, with its times in tenths of a second. -/
def answered (start listed finish : Nat) : DockerCall :=
  ⟨start * 10 ^ 8, listed * 10 ^ 8, finish * 10 ^ 8, true, true, true⟩

/-- An event between two calls that the second one asks for: the containers are listed
again. -/
theorem noEventLost_of_unbroken_two_calls :
    Meets (genProcessMetrics (daemon [11 * 10 ^ 9])) (NoEventLost (daemon [11 * 10 ^ 9])) new
        [answered 100 101 102, answered 120 121 122] ∧
      (run (genProcessMetrics (daemon [11 * 10 ^ 9])) new
        [answered 100 101 102, answered 120 121 122]).listings =
          [101 * 10 ^ 8, 121 * 10 ^ 8] := by
  refine ⟨noEventLost_of_unbroken _ _ ⟨⟨by decide, ?_⟩, ⟨by decide, ?_⟩, trivial⟩, by decide⟩
  · intro first isFirst event happens later unfollowed
    cases List.mem_singleton.mp happens
    exact ⟨by decide, by decide⟩
  · intro first isFirst event happens later unfollowed
    cases List.mem_singleton.mp happens
    exact ⟨by decide, by decide⟩

/-- All requests succeed, and an event during the second call is asked for by no query: it
lies behind the window of the second call and before that of the third. -/
theorem not_noEventLost_of_event_in_call :
    Meets (genProcessMetrics (daemon [115 * 10 ^ 8])) InOrder new
        [answered 100 100 100, answered 110 110 120, answered 130 130 130] ∧
      ¬ Meets (genProcessMetrics (daemon [115 * 10 ^ 8]))
        (NoEventLost (daemon [115 * 10 ^ 8])) new
        [answered 100 100 100, answered 110 110 120, answered 130 130 130] := by
  refine ⟨by decide, ?_⟩
  rintro ⟨_, _, noEventLost, _⟩
  obtain ⟨listed, isListed, follows⟩ := noEventLost (fun _ => ⟨rfl, fun _ => rfl⟩)
    (115 * 10 ^ 8) (List.mem_singleton_self _) ⟨100 * 10 ^ 8, by decide, by decide⟩ (by decide)
  revert listed
  decide

end DockerWatch

end ScaphandreFormal.Exporters
