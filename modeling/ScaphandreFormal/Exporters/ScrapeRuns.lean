import ScaphandreFormal.Exporters.Prometheus
import ScaphandreFormal.Sensors.Topology

/-!
# Runs of the Prometheus endpoint

Two kinds of runs are considered.  In the first, requests are served
concurrently: each reads the clock in one atomic step and executes the locked
section in another, in any interleaving.  In the second, requests are served
one after the other, and what matters is which of them refreshed the topology.
What the operations did for a request is noted beside the topology, in the calls
themselves.
-/

namespace ScaphandreFormal.Exporters

open Foundation

variable {Topology : Type}

/-! ## Concurrent scrapes -/

/-- What `gen_all_metrics` returned for each request. -/
abbrev Generations := Nat → Option (List Metric)

/-- The operations, noting what is generated for `request`. -/
def TopologyOps.generatingFor (ops : TopologyOps Topology) (request : Nat) :
    TopologyOps (Topology × Generations) :=
  ops.traced id fun metrics generations other =>
    if other = request then some metrics else generations other

/-- How far a request has got. -/
inductive Request where
  | waiting
  | clocked (now : Nat)
  | finished (now : Nat) (outcome : Outcome)
  deriving DecidableEq, Repr

structure Server (Topology : Type) where
  context : PowerMetrics (Topology × Generations)
  requests : Nat → Request

inductive Action where
  | readClock (request now : Nat)
  | enter (request : Nat)
  deriving DecidableEq, Repr

namespace Server

def setRequest (server : Server Topology) (index : Nat) (request : Request) :
    Server Topology :=
  { server with requests := fun other => if other = index then request
      else server.requests other }

theorem requests_setRequest (server : Server Topology) (index other : Nat)
    (request : Request) :
    (server.setRequest index request).requests other =
      if other = index then request else server.requests other :=
  rfl

/-- A clock reading finishes no request. -/
theorem finished_of_clocked {server : Server Topology} {index now other earlier : Nat}
    {outcome : Outcome}
    (finished : (server.setRequest index (.clocked now)).requests other =
      .finished earlier outcome) :
    server.requests other = .finished earlier outcome := by
  rw [requests_setRequest] at finished
  split at finished
  · cases finished
  · exact finished

/-- A finished request is the one that has just left, or had finished before. -/
theorem finished_cases {server : Server Topology} {index now other earlier : Nat}
    {left outcome : Outcome}
    (finished : (server.setRequest index (.finished now left)).requests other =
      .finished earlier outcome) :
    (other = index ∧ earlier = now ∧ outcome = left) ∨
      (other ≠ index ∧ server.requests other = .finished earlier outcome) := by
  rw [requests_setRequest] at finished
  split at finished
  · rename_i isIndex
    cases finished
    exact Or.inl ⟨isIndex, rfl, rfl⟩
  · rename_i isOther
    exact Or.inr ⟨isOther, finished⟩

/-- An action whose request is not at that point changes nothing. -/
def step (ops : TopologyOps Topology) (server : Server Topology) : Action → Server Topology
  | .readClock index now =>
      match server.requests index with
      | .waiting => server.setRequest index (.clocked now)
      | _ => server
  | .enter index =>
      match server.requests index with
      | .clocked now =>
          let served := showMetrics (ops.generatingFor index) now server.context
          { server with context := served.2 }.setRequest index (.finished now served.1)
      | _ => server

def initial (topology : Topology) : Server Topology where
  context := .new (topology, fun _ => none)
  requests := fun _ => .waiting

theorem step_readClock (ops : TopologyOps Topology) (server : Server Topology)
    (index now : Nat) :
    server.step ops (.readClock index now) = server ∨
      server.requests index = .waiting ∧
        server.step ops (.readClock index now) = server.setRequest index (.clocked now) := by
  cases request : server.requests index with
  | waiting => exact Or.inr ⟨rfl, by simp only [step, request]⟩
  | clocked earlier => exact Or.inl (by simp only [step, request])
  | finished earlier outcome => exact Or.inl (by simp only [step, request])

theorem step_enter_of_clocked {ops : TopologyOps Topology} {server : Server Topology}
    {index now : Nat} (clocked : server.requests index = .clocked now) :
    server.step ops (.enter index) =
      { server with context :=
          (showMetrics (ops.generatingFor index) now server.context).2 }.setRequest index
        (.finished now (showMetrics (ops.generatingFor index) now server.context).1) := by
  simp only [step, clocked]

theorem step_enter_of_not_clocked {ops : TopologyOps Topology} {server : Server Topology}
    {index : Nat} (idle : ∀ now, server.requests index ≠ .clocked now) :
    server.step ops (.enter index) = server := by
  cases request : server.requests index with
  | waiting => simp only [step, request]
  | clocked now => exact absurd request (idle now)
  | finished now outcome => simp only [step, request]

/-! ### What the endpoint remembers -/

/-- No request with a later clock reading has been in the locked section. -/
def Latest (server : Server Topology) (now : Nat) : Prop :=
  ∀ other earlier outcome, server.requests other = .finished earlier outcome → earlier ≤ now

/-- While no lock is poisoned, `last_request` holds the latest of the clock readings that
have been in the locked section, zero before the first. -/
structure Remembers (server : Server Topology) : Prop where
  latest : server.context.Sound → server.Latest server.context.lastRequest.value
  held : server.context.Sound → server.context.lastRequest.value = 0 ∨
    ∃ other outcome, server.requests other = .finished server.context.lastRequest.value outcome

theorem Remembers.latest_iff {server : Server Topology} (remembers : Remembers server)
    (sound : server.context.Sound) {now : Nat} :
    server.Latest now ↔ server.context.lastRequest.value ≤ now := by
  constructor
  · intro latest
    rcases remembers.held sound with none | ⟨other, outcome, finished⟩
    · omega
    · exact latest other _ outcome finished
  · intro inOrder other earlier outcome finished
    exact (remembers.latest sound other earlier outcome finished).trans inOrder

theorem remembers_initial (topology : Topology) : Remembers (initial topology) where
  latest := by
    intro _ other earlier outcome finished
    cases finished
  held := fun _ => Or.inl rfl

theorem Remembers.readClock {server : Server Topology} (remembers : Remembers server)
    {index : Nat} (waiting : server.requests index = .waiting) (now : Nat) :
    Remembers (server.setRequest index (.clocked now)) where
  latest := fun sound other earlier outcome finished =>
    remembers.latest sound other earlier outcome (finished_of_clocked finished)
  held := by
    intro sound
    rcases remembers.held sound with none | ⟨other, outcome, finished⟩
    · exact Or.inl none
    · refine Or.inr ⟨other, outcome, ?_⟩
      have isOther : other ≠ index := by
        rintro rfl
        rw [waiting] at finished
        cases finished
      rw [requests_setRequest, if_neg isOther]
      exact finished

theorem Remembers.enter {ops : TopologyOps Topology} {server : Server Topology}
    (remembers : Remembers server) {index now : Nat}
    (clocked : server.requests index = .clocked now) :
    Remembers (server.step ops (.enter index)) := by
  rw [step_enter_of_clocked clocked]
  have entered (after : (showMetrics (ops.generatingFor index) now server.context).2.Sound) :
      server.Latest now ∧ (showMetrics (ops.generatingFor index) now
        server.context).2.lastRequest.value = now := by
    obtain ⟨sound, through⟩ := sound_showMetrics_iff.mp after
    obtain ⟨⟨observed, metrics⟩, generated⟩ := Option.isSome_iff_exists.mp through.2
    refine ⟨(remembers.latest_iff sound).mpr through.1, ?_⟩
    rw [showMetrics_of_generate sound through.1 generated]
    rfl
  constructor
  · intro after other earlier outcome finished
    obtain ⟨latest, last⟩ := entered after
    change earlier ≤ (showMetrics (ops.generatingFor index) now
      server.context).2.lastRequest.value
    rw [last]
    rcases finished_cases finished with ⟨_, rfl, _⟩ | ⟨_, before⟩
    · exact Nat.le_refl _
    · exact latest other earlier outcome before
  · intro after
    refine Or.inr ⟨index, (showMetrics (ops.generatingFor index) now server.context).1, ?_⟩
    rw [requests_setRequest, if_pos rfl]
    exact congrArg (Request.finished · _) (entered after).2.symm

theorem remembers_step (ops : TopologyOps Topology) (server : Server Topology)
    (action : Action) (remembers : Remembers server) :
    Remembers (server.step ops action) := by
  cases action with
  | readClock index now =>
      rcases step_readClock ops server index now with same | ⟨waiting, next⟩
      · rw [same]
        exact remembers
      · rw [next]
        exact remembers.readClock waiting now
  | enter index =>
      by_cases idle : ∀ now, server.requests index ≠ .clocked now
      · rw [step_enter_of_not_clocked idle]
        exact remembers
      · push Not at idle
        obtain ⟨now, clocked⟩ := idle
        exact remembers.enter clocked

/-! ### Survival -/

/-- The response has the line of every metric generated for it, and some were
generated. -/
def Complete (generated : Option (List Metric)) : Outcome → Prop
  | .answered body =>
      ∃ metrics, generated = some metrics ∧ ∀ metric ∈ metrics, metric.line <:+: body
  | .panicked => False

/-- No lock is poisoned, no request has panicked, and every response is complete. -/
structure Survives (server : Server Topology) : Prop where
  sound : server.context.Sound
  complete : ∀ index now outcome, server.requests index = .finished now outcome →
    Complete (server.context.log index) outcome

/-- Requests enter the locked section in the order of their clock readings, and the
operations called there return. -/
def InOrder (ops : TopologyOps Topology) (server : Server Topology) : Action → Prop
  | .readClock _ _ => True
  | .enter index => ∀ now, server.requests index = .clocked now →
      server.Latest now ∧ Returns ops now server.context.forget

theorem survives_initial (topology : Topology) : Survives (initial topology) where
  sound := ⟨rfl, rfl⟩
  complete := by
    intro index now outcome finished
    cases finished

theorem Survives.readClock {server : Server Topology} (survives : Survives server)
    (index now : Nat) : Survives (server.setRequest index (.clocked now)) where
  sound := survives.sound
  complete := fun other earlier outcome finished =>
    survives.complete other earlier outcome (finished_of_clocked finished)

/-- Entering the locked section is safe just when it gets through. -/
theorem survives_enter_iff {ops : TopologyOps Topology} {server : Server Topology}
    (survives : Survives server) {index now : Nat}
    (clocked : server.requests index = .clocked now) :
    Survives (server.step ops (.enter index)) ↔ GetsThrough ops now server.context.forget := by
  rw [step_enter_of_clocked clocked]
  constructor
  · intro after
    exact getsThrough_traced_iff.mp (sound_showMetrics_iff.mp after.sound).2
  · intro through
    obtain ⟨⟨topology, metrics⟩, generated⟩ := Option.isSome_iff_exists.mp through.2
    have served : showMetrics (ops.generatingFor index) now server.context = _ :=
      showMetrics_traced_of_generate survives.sound through.1 generated
    rw [served]
    refine ⟨⟨rfl, rfl⟩, ?_⟩
    intro other earlier outcome finished
    change Complete (if other = index then some metrics else _) outcome
    rcases finished_cases finished with ⟨isIndex, _, rfl⟩ | ⟨isOther, before⟩
    · rw [if_pos isIndex]
      refine ⟨metrics, rfl, fun metric member => ?_⟩
      apply line_isInfix_pushMetrics
      exact List.mem_reverse.mpr (List.mem_append_right _ member)
    · rw [if_neg isOther]
      have kept := survives.complete other earlier outcome before
      split
      · exact kept
      · exact kept

theorem survives_step_iff (ops : TopologyOps Topology) (server : Server Topology)
    (action : Action) (remembers : Remembers server) (survives : Survives server) :
    Survives (server.step ops action) ↔ InOrder ops server action := by
  cases action with
  | readClock index now =>
      refine ⟨fun _ => trivial, fun _ => ?_⟩
      rcases step_readClock ops server index now with same | ⟨_, next⟩
      · rw [same]
        exact survives
      · rw [next]
        exact survives.readClock index now
  | enter index =>
      by_cases idle : ∀ now, server.requests index ≠ .clocked now
      · rw [step_enter_of_not_clocked idle]
        exact ⟨fun _ now clocked => absurd clocked (idle now), fun _ => survives⟩
      · push Not at idle
        obtain ⟨now, clocked⟩ := idle
        rw [survives_enter_iff survives clocked, InOrder, clocked]
        simp only [Request.clocked.injEq, forall_eq', GetsThrough]
        rw [remembers.latest_iff survives.sound]
        rfl

/-- A run of concurrent requests never poisons a lock, panics or serves an incomplete body
just when every locked section is entered in the order of the clock readings and gets
through. -/
theorem always_survives_iff_inOrder (ops : TopologyOps Topology) (topology : Topology)
    (actions : List Action) :
    Always (step ops) Survives (initial topology) actions ↔
      Meets (step ops) (InOrder ops) (initial topology) actions :=
  always_iff_meets_of_invariant Remembers (remembers_step ops) (survives_step_iff ops)
    (remembers_initial topology) (survives_initial topology)

/-- Operations that always return, with one metric. -/
def steadyOps : TopologyOps Unit where
  cleanTerminated := some
  refresh := some
  genAllMetrics := fun _ => some ((), [{
    name := "scaph_host_power_microwatts".toList
    metricType := "gauge".toList
    attributes := []
    description := "Power measurement on the whole host, in microwatts".toList
    metricValue := .intUnsigned 5 }])

/-- Two requests take the locks in the other order than they read the clock. -/
theorem not_survives_of_overtaking_request :
    ¬ Always (step steadyOps) Survives (initial ())
      [.readClock 0 (10 * 10 ^ 9), .readClock 1 (11 * 10 ^ 9), .enter 1, .enter 0] := by
  intro always
  have after := always _ List.prefix_rfl
  have panicked : (run (step steadyOps) (initial ())
      [.readClock 0 (10 * 10 ^ 9), .readClock 1 (11 * 10 ^ 9), .enter 1, .enter 0]).requests 0 =
        .finished (10 * 10 ^ 9) .panicked := by
    decide +kernel
  exact after.complete 0 _ .panicked panicked

/-! ### The modelled topology -/

/-- A topology with what the kernel offers to its refreshes and the states of the processes
before them. -/
structure Supplied (F Trace : Type) where
  topology : Sensors.Topology F Trace
  inputs : Nat → Sensors.RefreshInput F Trace
  statuses : Nat → Nat → Option Sensors.ProcessStatus
  refreshes : Nat

/-- The operations of the modelled topology, whatever metrics are made of it. -/
def sensorOps {F Trace : Type} [Float64 F]
    (genAllMetrics : Sensors.Topology F Trace → List Metric) :
    TopologyOps (Supplied F Trace) where
  cleanTerminated := fun supplied =>
    some { supplied with
      topology := { supplied.topology with
        procTracker := supplied.topology.procTracker.cleanTerminatedProcessRecordsVectors
          (supplied.statuses supplied.refreshes) } }
  refresh := fun supplied =>
    some { supplied with
      topology := supplied.topology.refresh (supplied.inputs supplied.refreshes)
      refreshes := supplied.refreshes + 1 }
  genAllMetrics := fun supplied => some (supplied, genAllMetrics supplied.topology)

/-- Requests enter the locked section in the order of their clock readings. -/
def Ordered (server : Server Topology) : Action → Prop
  | .readClock _ _ => True
  | .enter index => ∀ now, server.requests index = .clocked now → server.Latest now

section Sensors

variable {F Trace : Type} [Float64 F]

theorem returns_sensorOps (genAllMetrics : Sensors.Topology F Trace → List Metric) (now : Nat)
    (context : PowerMetrics (Supplied F Trace)) :
    Returns (sensorOps genAllMetrics) now context := by
  unfold Returns TopologyOps.generate
  split
  · rfl
  · rfl

/-- On the modelled topology, whose operations always return, all depends on the order of the
clock readings. -/
theorem always_survives_iff_ordered (genAllMetrics : Sensors.Topology F Trace → List Metric)
    (supplied : Supplied F Trace) (actions : List Action) :
    Always (step (sensorOps genAllMetrics)) Survives (initial supplied) actions ↔
      Meets (step (sensorOps genAllMetrics)) Ordered (initial supplied) actions := by
  refine always_iff_meets_of_invariant Remembers (remembers_step _) ?_
    (remembers_initial supplied) (survives_initial supplied)
  intro server action remembers survives
  rw [survives_step_iff _ server action remembers survives]
  cases action with
  | readClock index now => exact Iff.rfl
  | enter index =>
      refine forall₂_congr fun now _ => ?_
      exact and_iff_left (returns_sensorOps genAllMetrics now _)

end Sensors

end Server

/-! ## Scrapes one after the other -/

/-- The operations, stamping the topology with the clock reading of the request that
refreshes it. -/
def TopologyOps.stampedAt (ops : TopologyOps Topology) (now : Nat) :
    TopologyOps (Topology × Option Nat) :=
  ops.traced (fun _ => some now) fun _ refreshed => refreshed

namespace Endpoint

/-- The context that the request at `now` leaves. -/
def serve (ops : TopologyOps Topology) (context : PowerMetrics Topology) (now : Nat) :
    PowerMetrics Topology :=
  (showMetrics ops now context).2

/-- The same where every refresh stamps the topology. -/
def serveStamped (ops : TopologyOps Topology) (context : PowerMetrics (Topology × Option Nat))
    (now : Nat) : PowerMetrics (Topology × Option Nat) :=
  (showMetrics (ops.stampedAt now) now context).2

/-- The stamps change nothing that the endpoint does. -/
theorem forget_run_serveStamped (ops : TopologyOps Topology) (topology : Topology)
    (times : List Nat) :
    (run (serveStamped ops) (.new (topology, none)) times).forget =
      run (serve ops) (.new topology) times := by
  refine related_run (fun (context : PowerMetrics (Topology × Option Nat)) plain =>
    context.forget = plain) ?_ rfl
  intro context plain now _ same
  rw [← same]
  exact showMetrics_traced.2

/-- The topology was last refreshed by a request at most two seconds older than `now`. -/
def Fresh (context : PowerMetrics (Topology × Option Nat)) (now : Nat) : Prop :=
  ∃ refreshed ∈ context.log, now ≤ refreshed + refreshAge

/-- The clock reading of the request before, zero before the first. -/
def previous (times : List Nat) : Nat := times.getLast?.getD 0

/-- `time` is a request of the sequence that came more than two seconds after the one
before it. -/
def AfterGap (times : List Nat) (time : Nat) : Prop :=
  ∃ before after, times = before ++ time :: after ∧ refreshAge < time - previous before

theorem afterGap_concat (times : List Nat) (now time : Nat) :
    AfterGap (times ++ [now]) time ↔
      AfterGap times time ∨ time = now ∧ refreshAge < now - previous times := by
  constructor
  · rintro ⟨before, after, split, gap⟩
    rcases List.eq_nil_or_concat after with rfl | ⟨rest, last, rfl⟩
    · obtain ⟨rfl, same⟩ := List.append_inj' split rfl
      cases same
      exact Or.inr ⟨rfl, gap⟩
    · rw [List.concat_eq_append, ← List.cons_append, ← List.append_assoc] at split
      obtain ⟨rfl, _⟩ := List.append_inj' split rfl
      exact Or.inl ⟨before, rest, rfl, gap⟩
  · rintro (⟨before, after, rfl, gap⟩ | ⟨rfl, gap⟩)
    · exact ⟨before, after ++ [now], by simp, gap⟩
    · exact ⟨times, [], rfl, gap⟩

/-- The recorded refresh is the latest request after a gap. -/
def LatestGap (times : List Nat) (lastRefresh : Option Nat) : Prop :=
  (∀ refreshed ∈ lastRefresh, AfterGap times refreshed) ∧
    ∀ time, AfterGap times time → ∃ refreshed ∈ lastRefresh, time ≤ refreshed

/-- While no lock is poisoned, the endpoint holds the last request, and the stamp of its
topology is the latest request after a gap. -/
structure Follows (times : List Nat) (context : PowerMetrics (Topology × Option Nat)) :
    Prop where
  lastRequest : context.lastRequest.value = previous times
  latest : LatestGap times context.log

theorem latestGap_concat {times : List Nat} {now : Nat} {lastRefresh : Option Nat}
    (latest : LatestGap times lastRefresh) (ordered : ∀ time ∈ times, time ≤ now) :
    LatestGap (times ++ [now])
      (if refreshAge < now - previous times then some now else lastRefresh) := by
  obtain ⟨isGap, isLatest⟩ := latest
  split
  · rename_i gap
    constructor
    · intro refreshed same
      cases same
      exact (afterGap_concat times now now).mpr (Or.inr ⟨rfl, gap⟩)
    · intro time isAfterGap
      refine ⟨now, rfl, ?_⟩
      obtain ⟨before, after, shape, _⟩ := isAfterGap
      have member : time ∈ times ++ [now] := by
        rw [shape]
        exact List.mem_append_right _ List.mem_cons_self
      rcases List.mem_append.mp member with old | new
      · exact ordered time old
      · exact Nat.le_of_eq (List.mem_singleton.mp new)
  · rename_i noGap
    constructor
    · intro refreshed found
      exact (afterGap_concat times now refreshed).mpr (Or.inl (isGap refreshed found))
    · intro time isAfterGap
      rcases (afterGap_concat times now time).mp isAfterGap with old | ⟨_, gap⟩
      · exact isLatest time old
      · exact absurd gap noGap

/-- One more request that gets through keeps the stamp at the latest gap. -/
theorem Follows.serve {ops : TopologyOps Topology}
    {context : PowerMetrics (Topology × Option Nat)} {times : List Nat} {now : Nat}
    (follows : Follows times context) (ordered : ∀ time ∈ times, time ≤ now)
    (sound : context.Sound) (through : GetsThrough ops now context.forget) :
    Follows (times ++ [now]) (serveStamped ops context now) := by
  obtain ⟨⟨topology, metrics⟩, generated⟩ := Option.isSome_iff_exists.mp through.2
  have served : showMetrics (ops.stampedAt now) now context = _ :=
    showMetrics_traced_of_generate sound through.1 generated
  rw [serveStamped, served]
  refine ⟨by simp [previous, Mutex.new], ?_⟩
  have extended := latestGap_concat follows.latest ordered
  rw [← follows.lastRequest] at extended
  exact extended

theorem follows_run (ops : TopologyOps Topology) (topology : Topology) (times : List Nat)
    (ordered : times.Pairwise (· ≤ ·))
    (sound : (run (serveStamped ops) (.new (topology, none)) times).Sound) :
    Follows times (run (serveStamped ops) (.new (topology, none)) times) := by
  induction times using List.reverseRecOn with
  | nil =>
      refine ⟨rfl, ?_, ?_⟩
      · intro refreshed found
        cases found
      · rintro time ⟨before, after, shape, _⟩
        simp at shape
  | append_singleton times now ih =>
      rw [run_concat] at sound ⊢
      obtain ⟨soundBefore, through⟩ := sound_showMetrics_iff.mp sound
      rw [List.pairwise_append] at ordered
      exact (ih ordered.1 soundBefore).serve
        (fun time member => ordered.2.2 time member now (List.mem_singleton_self now))
        soundBefore (getsThrough_traced_iff.mp through)

/-- As long as no request panics, data served at `now` is fresh just when some request within
the last two seconds came more than two seconds after the request before it. -/
theorem fresh_iff_recent_gap (ops : TopologyOps Topology) (topology : Topology)
    (earlier : List Nat) (now : Nat) (ordered : (earlier ++ [now]).Pairwise (· ≤ ·))
    (served : (run (serve ops) (.new topology) (earlier ++ [now])).Sound) :
    Fresh (run (serveStamped ops) (.new (topology, none)) (earlier ++ [now])) now ↔
      ∃ time, AfterGap (earlier ++ [now]) time ∧ now ≤ time + refreshAge := by
  rw [← forget_run_serveStamped] at served
  obtain ⟨isGap, isLatest⟩ := (follows_run ops topology (earlier ++ [now]) ordered served).latest
  constructor
  · rintro ⟨refreshed, found, recent⟩
    exact ⟨refreshed, isGap refreshed found, recent⟩
  · rintro ⟨time, isAfterGap, recent⟩
    obtain ⟨refreshed, found, later⟩ := isLatest time isAfterGap
    exact ⟨refreshed, found, by omega⟩

theorem fresh_iff_recent_gap_steady :
    Fresh (run (serveStamped Server.steadyOps) (.new ((), none))
      ([10 * 10 ^ 9, 15 * 10 ^ 9] ++ [16 * 10 ^ 9])) (16 * 10 ^ 9) :=
  (fresh_iff_recent_gap Server.steadyOps () [10 * 10 ^ 9, 15 * 10 ^ 9] (16 * 10 ^ 9)
    (by decide) ⟨rfl, rfl⟩).mpr
      ⟨15 * 10 ^ 9, ⟨[10 * 10 ^ 9], [16 * 10 ^ 9], rfl, by decide⟩, by decide⟩

/-- Requests every one and a half seconds: only the first one refreshes. -/
theorem not_fresh_of_steady_scrapes :
    [10 * 10 ^ 9, 115 * 10 ^ 8, 13 * 10 ^ 9].Pairwise (· ≤ ·) ∧
      (run (serve Server.steadyOps) (.new ())
        [10 * 10 ^ 9, 115 * 10 ^ 8, 13 * 10 ^ 9]).Sound ∧
      ¬ Fresh (run (serveStamped Server.steadyOps) (.new ((), none))
        [10 * 10 ^ 9, 115 * 10 ^ 8, 13 * 10 ^ 9]) (13 * 10 ^ 9) := by
  refine ⟨by decide, ⟨rfl, rfl⟩, ?_⟩
  rintro ⟨refreshed, found, recent⟩
  have first : (run (serveStamped Server.steadyOps) (.new ((), none))
      [10 * 10 ^ 9, 115 * 10 ^ 8, 13 * 10 ^ 9]).log = some (10 * 10 ^ 9) := by
    decide +kernel
  rw [first] at found
  cases found
  exact absurd recent (by decide)

end Endpoint

end ScaphandreFormal.Exporters
