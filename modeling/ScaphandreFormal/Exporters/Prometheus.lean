import ScaphandreFormal.Foundation.Decimal
import ScaphandreFormal.Foundation.Trace
import Mathlib.Data.List.Infix

/-!
# The Prometheus endpoint

`show_metrics` answers a request in two steps.  It reads the system clock, and
then, under the locks of `last_request` and `metric_generator`, refreshes the
topology when the previous request is more than two seconds old, generates the
metrics and renders them.  A panic under the locks poisons both, and every
later request is answered with an empty body.

The topology is a parameter here: what the endpoint needs of it is whether its
operations return.
-/

namespace ScaphandreFormal.Exporters

open Foundation

/-! ## Metrics and their text -/

inductive MetricValueType where
  | text (value : Text)
  | intUnsigned (value : Nat)
  deriving DecidableEq, Repr

/-- `value.to_string()`. -/
def MetricValueType.toText : MetricValueType → Text
  | .text value => value
  | .intUnsigned value => Foundation.toText value

/-- The fields of a metric that the endpoint writes.  The attributes stand in the order
in which the hash map yields them. -/
structure Metric where
  name : Text
  metricType : Text
  attributes : List (Text × Text)
  description : Text
  metricValue : MetricValueType
  deriving DecidableEq, Repr

/-- One `key="value",` of a label list; quotes become underscores, backslashes vanish. -/
def formatLabel (label : Text × Text) : Text :=
  label.1 ++ ['=', '"'] ++
    ((label.2.map fun c => if c = '"' then '_' else c).filter (· ≠ '\\')) ++ ['"', ',']

def formatPrometheusMetric (key value : Text) (labels : Option (List (Text × Text))) : Text :=
  let result :=
    match labels with
    | some labels => (key ++ ['\x7b'] ++ labels.flatMap formatLabel).dropLast ++ ['\x7d']
    | none => key
  result ++ [' '] ++ value ++ ['\n']

/-- Adds lines related to a metric in the body of the response. -/
def pushMetric (body help metricType metricName metricLine : Text) (addHelp : Bool) : Text :=
  let helped :=
    if addHelp then
      body ++ "# HELP ".toList ++ metricName ++ [' '] ++ help ++
        "\n# TYPE ".toList ++ metricName ++ [' '] ++ metricType ++ ['\n']
    else body
  helped ++ metricLine

namespace Metric

/-- The line of the metric in a response. -/
def line (metric : Metric) : Text :=
  formatPrometheusMetric metric.name metric.metricValue.toText
    (if metric.attributes.isEmpty then none else some metric.attributes)

end Metric

/-- The loop that renders the popped metrics; the first one of a name gets the help. -/
def pushMetrics : List Metric → List Text → Text → Text
  | [], _, body => body
  | msg :: rest, metricsPushed, body =>
      if msg.name ∈ metricsPushed then
        pushMetrics rest metricsPushed
          (pushMetric body msg.description msg.metricType msg.name msg.line false)
      else
        pushMetrics rest (msg.name :: metricsPushed)
          (pushMetric body msg.description msg.metricType msg.name msg.line true)

theorem pushMetric_eq (body help metricType metricName metricLine : Text) (addHelp : Bool) :
    ∃ head, pushMetric body help metricType metricName metricLine addHelp =
      body ++ head ++ metricLine := by
  cases addHelp with
  | false => exact ⟨[], by simp [pushMetric]⟩
  | true =>
      refine ⟨"# HELP ".toList ++ metricName ++ [' '] ++ help ++
        "\n# TYPE ".toList ++ metricName ++ [' '] ++ metricType ++ ['\n'], ?_⟩
      simp [pushMetric]

/-- Rendering more metrics keeps the body so far. -/
theorem isPrefix_pushMetrics (metrics : List Metric) (metricsPushed : List Text) (body : Text) :
    body <+: pushMetrics metrics metricsPushed body := by
  induction metrics generalizing metricsPushed body with
  | nil => exact List.prefix_rfl
  | cons msg rest ih =>
      have extended : ∀ addHelp, body <+:
          pushMetric body msg.description msg.metricType msg.name msg.line addHelp := by
        intro addHelp
        obtain ⟨head, shape⟩ :=
          pushMetric_eq body msg.description msg.metricType msg.name msg.line addHelp
        rw [shape, List.append_assoc]
        exact List.prefix_append _ _
      rw [pushMetrics]
      split
      · exact (extended false).trans (ih _ _)
      · exact (extended true).trans (ih _ _)

/-- The response holds the line of every metric that was popped. -/
theorem line_isInfix_pushMetrics {metrics : List Metric} {metric : Metric}
    (member : metric ∈ metrics) (metricsPushed : List Text) (body : Text) :
    metric.line <:+: pushMetrics metrics metricsPushed body := by
  induction metrics generalizing metricsPushed body with
  | nil => cases member
  | cons msg rest ih =>
      rcases List.mem_cons.mp member with rfl | later
      · have written : ∀ addHelp, metric.line <:+: pushMetric body metric.description
            metric.metricType metric.name metric.line addHelp := by
          intro addHelp
          obtain ⟨head, shape⟩ := pushMetric_eq body metric.description metric.metricType
            metric.name metric.line addHelp
          rw [shape]
          exact (List.suffix_append _ _).isInfix
        rw [pushMetrics]
        split
        · exact (written false).trans (isPrefix_pushMetrics _ _ _).isInfix
        · exact (written true).trans (isPrefix_pushMetrics _ _ _).isInfix
      · rw [pushMetrics]
        split
        · exact ih later _ _
        · exact ih later _ _

/-! ## The locked section -/

/-- A value behind a lock that a panicking holder leaves poisoned. -/
structure Mutex (Value : Type) where
  value : Value
  poisoned : Bool

namespace Mutex

variable {Value : Type}

def new (value : Value) : Mutex Value := ⟨value, false⟩

/-- The guarded value, or nothing once a holder has panicked. -/
def lock (mutex : Mutex Value) : Option Value :=
  if mutex.poisoned then none else some mutex.value

/-- The mutex after its holder panicked. -/
def poison (mutex : Mutex Value) : Mutex Value := { mutex with poisoned := true }

theorem lock_eq_some {mutex : Mutex Value} (sound : mutex.poisoned = false) :
    mutex.lock = some mutex.value := by
  simp [lock, sound]

theorem lock_eq_none {mutex : Mutex Value} (poisoned : mutex.poisoned = true) :
    mutex.lock = none := by
  simp [lock, poisoned]

end Mutex

/-- What the endpoint calls on the topology and the generator, absent results being
panics: `clean_terminated_process_records_vectors`, `refresh`, and the metrics that
`gen_all_metrics` adds. -/
structure TopologyOps (Topology : Type) where
  cleanTerminated : Topology → Option Topology
  refresh : Topology → Option Topology
  genAllMetrics : Topology → Option (Topology × List Metric)

structure MetricGenerator (Topology : Type) where
  data : List Metric
  topology : Topology

structure PowerMetrics (Topology : Type) where
  lastRequest : Mutex Nat
  metricGenerator : Mutex (MetricGenerator Topology)

/-- Two seconds, in the nanoseconds that durations are counted in. -/
def refreshAge : Nat := 2 * 10 ^ 9

variable {Topology : Type}

namespace TopologyOps

/-- Refresh when due, then generate. -/
def generate (ops : TopologyOps Topology) (due : Bool) (topology : Topology) :
    Option (Topology × List Metric) :=
  if due then
    ((ops.cleanTerminated topology).bind ops.refresh).bind ops.genAllMetrics
  else
    ops.genAllMetrics topology

/-- The operations with a log beside the topology, which every call of `refresh` and every
call of `gen_all_metrics` that returns updates. -/
def traced {Log : Type} (ops : TopologyOps Topology) (onRefresh : Log → Log)
    (onMetrics : List Metric → Log → Log) : TopologyOps (Topology × Log) where
  cleanTerminated := fun observed =>
    (ops.cleanTerminated observed.1).map fun topology => (topology, observed.2)
  refresh := fun observed =>
    (ops.refresh observed.1).map fun topology => (topology, onRefresh observed.2)
  genAllMetrics := fun observed =>
    (ops.genAllMetrics observed.1).map fun generated =>
      ((generated.1, onMetrics generated.2 observed.2), generated.2)

/-- The log does not change what is generated, and tells whether the topology was refreshed
before it. -/
theorem generate_traced {Log : Type} (ops : TopologyOps Topology) (onRefresh : Log → Log)
    (onMetrics : List Metric → Log → Log) (due : Bool) (observed : Topology × Log) :
    (ops.traced onRefresh onMetrics).generate due observed =
      (ops.generate due observed.1).map fun generated =>
        ((generated.1, onMetrics generated.2 (if due then onRefresh observed.2 else observed.2)),
          generated.2) := by
  cases due with
  | false => rfl
  | true =>
      simp only [generate, traced, if_true]
      cases ops.cleanTerminated observed.1 with
      | none => rfl
      | some cleaned =>
          simp only [Option.map_some, Option.bind_some]
          cases ops.refresh cleaned with
          | none => rfl
          | some refreshed => rfl

end TopologyOps

/-- How a request ends. -/
inductive Outcome where
  | answered (body : Text)
  | panicked
  deriving DecidableEq, Repr

/-- `show_metrics` on the metrics path from the first lock on.  `now - *last_request`
panics when `now` is the earlier time. -/
def showMetrics (ops : TopologyOps Topology) (now : Nat) (context : PowerMetrics Topology) :
    Outcome × PowerMetrics Topology :=
  match context.lastRequest.lock with
  | none => (.answered [], context)
  | some lastRequest =>
      match context.metricGenerator.lock with
      | none => (.answered [], context)
      | some generator =>
          let generated :=
            if now < lastRequest then none
            else ops.generate (refreshAge < now - lastRequest) generator.topology
          match generated with
          | none =>
              (.panicked,
                { lastRequest := context.lastRequest.poison
                  metricGenerator := context.metricGenerator.poison })
          | some (topology, metrics) =>
              -- `pop_metrics` takes from the end until nothing is left.
              let popped := (generator.data ++ metrics).reverse
              (.answered (pushMetrics popped [] []),
                { lastRequest := .new now
                  metricGenerator := .new { data := [], topology := topology } })

namespace PowerMetrics

/-- Neither lock is poisoned. -/
def Sound (context : PowerMetrics Topology) : Prop :=
  context.lastRequest.poisoned = false ∧ context.metricGenerator.poisoned = false

/-- The context that `run_server` builds. -/
def new (topology : Topology) : PowerMetrics Topology where
  lastRequest := .new 0
  metricGenerator := .new { data := [], topology := topology }

end PowerMetrics

/-- The operations that the locked section calls at `now` return. -/
def Returns (ops : TopologyOps Topology) (now : Nat) (context : PowerMetrics Topology) : Prop :=
  (ops.generate (refreshAge < now - context.lastRequest.value)
    context.metricGenerator.value.topology).isSome

/-- The locked section gets through: the time does not go backwards, and the operations it
calls return. -/
def GetsThrough (ops : TopologyOps Topology) (now : Nat) (context : PowerMetrics Topology) :
    Prop :=
  context.lastRequest.value ≤ now ∧ Returns ops now context

theorem showMetrics_of_generate {ops : TopologyOps Topology} {now : Nat}
    {context : PowerMetrics Topology} (sound : context.Sound)
    (inOrder : context.lastRequest.value ≤ now) {topology : Topology} {metrics : List Metric}
    (generated : ops.generate (refreshAge < now - context.lastRequest.value)
      context.metricGenerator.value.topology = some (topology, metrics)) :
    showMetrics ops now context =
      (.answered (pushMetrics (context.metricGenerator.value.data ++ metrics).reverse [] []),
        { lastRequest := .new now
          metricGenerator := .new { data := [], topology := topology } }) := by
  simp only [showMetrics, Mutex.lock_eq_some sound.1, Mutex.lock_eq_some sound.2,
    if_neg (Nat.not_lt.mpr inOrder), generated]

theorem showMetrics_of_not_getsThrough {ops : TopologyOps Topology} {now : Nat}
    {context : PowerMetrics Topology} (sound : context.Sound)
    (stuck : ¬ GetsThrough ops now context) :
    showMetrics ops now context =
      (.panicked,
        { lastRequest := context.lastRequest.poison
          metricGenerator := context.metricGenerator.poison }) := by
  simp only [showMetrics, Mutex.lock_eq_some sound.1, Mutex.lock_eq_some sound.2]
  rcases Nat.lt_or_ge now context.lastRequest.value with backwards | inOrder
  · simp [backwards]
  · have failed : ops.generate (refreshAge < now - context.lastRequest.value)
        context.metricGenerator.value.topology = none := by
      rw [← Option.not_isSome_iff_eq_none]
      exact fun returns => stuck ⟨inOrder, returns⟩
    rw [if_neg (Nat.not_lt.mpr inOrder), failed]

/-- A poisoned context serves nothing and stays as it is. -/
theorem showMetrics_of_not_sound {ops : TopologyOps Topology} {now : Nat}
    {context : PowerMetrics Topology} (poisoned : ¬ context.Sound) :
    showMetrics ops now context = (.answered [], context) := by
  unfold showMetrics
  cases first : context.lastRequest.poisoned with
  | true => rw [Mutex.lock_eq_none first]
  | false =>
      cases second : context.metricGenerator.poisoned with
      | true => rw [Mutex.lock_eq_some first, Mutex.lock_eq_none second]
      | false => exact absurd ⟨first, second⟩ poisoned

/-- The locks stay sound just when the locked section is entered with sound ones and gets
through. -/
theorem sound_showMetrics_iff {ops : TopologyOps Topology} {now : Nat}
    {context : PowerMetrics Topology} :
    (showMetrics ops now context).2.Sound ↔ context.Sound ∧ GetsThrough ops now context := by
  by_cases sound : context.Sound
  · by_cases through : GetsThrough ops now context
    · obtain ⟨⟨topology, metrics⟩, generated⟩ := Option.isSome_iff_exists.mp through.2
      rw [showMetrics_of_generate sound through.1 generated]
      exact ⟨fun _ => ⟨sound, through⟩, fun _ => ⟨rfl, rfl⟩⟩
    · rw [showMetrics_of_not_getsThrough sound through]
      exact ⟨fun after => (nomatch after.1), fun before => absurd before.2 through⟩
  · rw [showMetrics_of_not_sound sound]
    exact ⟨fun after => absurd after sound, fun before => absurd before.1 sound⟩

/-! ## Observed requests -/

namespace PowerMetrics

/-- The context without the log. -/
def forget {Log : Type} (context : PowerMetrics (Topology × Log)) : PowerMetrics Topology where
  lastRequest := context.lastRequest
  metricGenerator :=
    { value := { data := context.metricGenerator.value.data
                 topology := context.metricGenerator.value.topology.1 }
      poisoned := context.metricGenerator.poisoned }

/-- The log beside the topology. -/
def log {Log : Type} (context : PowerMetrics (Topology × Log)) : Log :=
  context.metricGenerator.value.topology.2

end PowerMetrics

section Traced

variable {Log : Type} {ops : TopologyOps Topology} {onRefresh : Log → Log}
  {onMetrics : List Metric → Log → Log} {now : Nat} {context : PowerMetrics (Topology × Log)}

theorem getsThrough_traced_iff :
    GetsThrough (ops.traced onRefresh onMetrics) now context ↔
      GetsThrough ops now context.forget := by
  unfold GetsThrough Returns
  rw [TopologyOps.generate_traced, Option.isSome_map]
  rfl

/-- A request that gets through on the operations with a log. -/
theorem showMetrics_traced_of_generate (sound : context.Sound)
    (inOrder : context.lastRequest.value ≤ now) {topology : Topology} {metrics : List Metric}
    (generated : ops.generate (refreshAge < now - context.lastRequest.value)
      context.metricGenerator.value.topology.1 = some (topology, metrics)) :
    showMetrics (ops.traced onRefresh onMetrics) now context =
      (.answered (pushMetrics (context.metricGenerator.value.data ++ metrics).reverse [] []),
        { lastRequest := .new now
          metricGenerator := .new
            { data := []
              topology := (topology, onMetrics metrics
                (if refreshAge < now - context.lastRequest.value then onRefresh context.log
                  else context.log)) } }) := by
  have traced := TopologyOps.generate_traced ops onRefresh onMetrics
    (refreshAge < now - context.lastRequest.value) context.metricGenerator.value.topology
  rw [generated] at traced
  rw [showMetrics_of_generate sound inOrder traced]
  simp only [decide_eq_true_eq]
  rfl

/-- A request on the operations with a log answers what one on the plain operations does, and
leaves the same context. -/
theorem showMetrics_traced :
    (showMetrics (ops.traced onRefresh onMetrics) now context).1 =
        (showMetrics ops now context.forget).1 ∧
      (showMetrics (ops.traced onRefresh onMetrics) now context).2.forget =
        (showMetrics ops now context.forget).2 := by
  by_cases sound : context.Sound
  · have forgotten : context.forget.Sound := sound
    by_cases through : GetsThrough ops now context.forget
    · obtain ⟨⟨topology, metrics⟩, generated⟩ := Option.isSome_iff_exists.mp through.2
      rw [showMetrics_of_generate forgotten through.1 generated,
        showMetrics_traced_of_generate sound through.1 generated]
      exact ⟨rfl, rfl⟩
    · rw [showMetrics_of_not_getsThrough forgotten through,
        showMetrics_of_not_getsThrough sound (mt getsThrough_traced_iff.mp through)]
      exact ⟨rfl, rfl⟩
  · have forgotten : ¬ context.forget.Sound := sound
    rw [showMetrics_of_not_sound forgotten, showMetrics_of_not_sound sound]
    exact ⟨rfl, rfl⟩

end Traced

end ScaphandreFormal.Exporters
