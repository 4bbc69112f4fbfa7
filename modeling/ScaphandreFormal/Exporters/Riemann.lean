import ScaphandreFormal.Foundation.FloatText
import ScaphandreFormal.Exporters.RoundTrip
import ScaphandreFormal.Sensors.CoreDistribution

/-!
# The Riemann exporter

`send_metric` takes a value with a point for a floating-point number and every other value for
an `i64`, and panics where it cannot be read so.  The generator writes unsigned numbers,
contents of counter files and printed floating-point numbers, of which the integral ones have
no point and those of an idle core are no numbers at all.  What is sent is right just where
every value fits the type it is taken for.

A printed `f64` is identified with the decimal that its text denotes.  `parseF64` reads that
decimal without rounding, and the text of an `f64` is one that rounds back to it.
-/

namespace ScaphandreFormal.Exporters

open Foundation

/-! ## `send_metric` -/

/-- The number of an event. -/
inductive EventNumber where
  | sint64 (value : Int)
  | double (value : ExactFloat)
  deriving DecidableEq

def EventNumber.amount : EventNumber → ExactFloat
  | .sint64 value => .num value
  | .double value => value

/-- The fields of an event that come from the metric. -/
structure Event where
  service : Text
  attributes : List (Text × Text)
  description : Text
  metric : EventNumber

/-- The two `expect`: "Metric cannot be converted to signed integer." and "Cannot parse metric
value." -/
inductive SendPanic where
  | cannotBeConverted
  | cannotParse
  deriving DecidableEq, Repr

/-- `value.replace(',', ".").replace('\n', "")`. -/
def replaced (value : Text) : Text :=
  (value.map fun c => if c = ',' then '.' else c).filter (· ≠ '\n')

def eventNumber : MetricValueType → Except SendPanic EventNumber
  | .intUnsigned value =>
      if value ≤ i64Max then .ok (.sint64 value) else .error .cannotBeConverted
  | .text value =>
      if '.' ∈ replaced value then
        match parseF64 (replaced value) with
        | some number => .ok (.double number)
        | none => .error .cannotParse
      else
        match parseI64 (replaced value) with
        | some number => .ok (.sint64 number)
        | none => .error .cannotParse

/-- `send_metric` up to the connection. -/
def sendMetric (metric : Metric) : Except SendPanic Event := do
  let number ← eventNumber metric.metricValue
  return {
    service := metric.name
    attributes := metric.attributes
    description := metric.description
    metric := number }

/-- The metric is sent with this number. -/
def Accepted (metric : Metric) (amount : ExactFloat) : Prop :=
  ∃ event, sendMetric metric = .ok event ∧ event.metric.amount = amount

theorem accepted_iff (metric : Metric) (amount : ExactFloat) :
    Accepted metric amount ↔
      ∃ sent, eventNumber metric.metricValue = .ok sent ∧ sent.amount = amount := by
  unfold Accepted sendMetric
  cases eventNumber metric.metricValue with
  | ok sent => simp [Except.bind, bind, pure, Except.pure]
  | error panic => simp [Except.bind, bind]

/-! ## The values that the generator writes -/

namespace PrintedFloat

/-- The number that is printed. -/
def amount : PrintedFloat → ExactFloat
  | .nan => .nan
  | .infinite negative => if negative then .negInf else .posInf
  | .decimal negative whole fraction =>
      .num (if negative then -(whole + fractionValue fraction) else whole + fractionValue fraction)

/-- The number has a point, or it is in the range of `i64`. -/
def Sendable : PrintedFloat → Prop
  | .nan => False
  | .infinite _ => False
  | .decimal negative whole [] => FitsI64 negative whole
  | .decimal _ _ (_ :: _) => True

end PrintedFloat

namespace Reading

/-- The number that is written; the version is 1.00. -/
def amount : Reading → ExactFloat
  | .version => .num 1
  | .count n | .number n | .counterFile n _ => .num n
  | .float x => x.amount

def Sendable : Reading → Prop
  | .version => True
  | .count n | .number n | .counterFile n _ => n ≤ i64Max
  | .float x => x.Sendable

end Reading

theorem replaced_append (first second : Text) :
    replaced (first ++ second) = replaced first ++ replaced second := by
  rw [replaced, List.map_append, List.filter_append]
  rfl

theorem replaced_of_clear {value : Text} (clear : ∀ c ∈ value, c ≠ ',' ∧ c ≠ '\n') :
    replaced value = value := by
  have same : (value.map fun c => if c = ',' then '.' else c) = value := by
    have kept : ∀ c ∈ value, (if c = ',' then '.' else c) = c := fun c member =>
      if_neg (clear c member).1
    rw [List.map_congr_left kept, List.map_id']
  rw [replaced, same, List.filter_eq_self]
  exact fun c member => decide_eq_true (clear c member).2

theorem replaced_digits {value : Text} (digits : ∀ c ∈ value, c.isDigit = true) :
    replaced value = value := by
  refine replaced_of_clear fun c member => ⟨?_, ?_⟩
  · rintro rfl
    exact absurd (digits _ member) (by decide)
  · rintro rfl
    exact absurd (digits _ member) (by decide)

/-- A value without a point is taken for an `i64`. -/
theorem eventNumber_integer {value : Text} {negative : Bool} {n : Nat}
    (isInteger : replaced value = minus negative ++ toText n) :
    eventNumber (.text value) =
      if FitsI64 negative n then .ok (.sint64 (if negative then -(n : Int) else n))
      else .error .cannotParse := by
  have noPoint : '.' ∉ minus negative ++ toText n := by
    intro member
    rcases List.mem_append.mp member with inSign | inDigits
    · cases negative <;> simp [minus] at inSign
    · exact absurd (isDigit_of_mem_toText inDigits) (by decide)
  rw [eventNumber, isInteger, if_neg noPoint, parseI64_toText]
  by_cases fits : FitsI64 negative n
  · rw [if_pos fits, if_pos fits]
  · rw [if_neg fits, if_neg fits]

theorem accepted_integer_iff {metric : Metric} {value : Text} {negative : Bool} {n : Nat}
    (isText : metric.metricValue = .text value)
    (isInteger : replaced value = minus negative ++ toText n) :
    Accepted metric (.num (if negative then -(n : ℚ) else n)) ↔ FitsI64 negative n := by
  rw [accepted_iff, isText, eventNumber_integer isInteger]
  by_cases fits : FitsI64 negative n
  · rw [if_pos fits]
    refine iff_of_true ⟨_, rfl, ?_⟩ fits
    cases negative <;> simp [EventNumber.amount]
  · rw [if_neg fits]
    refine iff_of_false ?_ fits
    rintro ⟨sent, isSent, _⟩
    cases isSent

theorem accepted_natural_iff {metric : Metric} {value : Text} {n : Nat}
    (isText : metric.metricValue = .text value) (isNatural : replaced value = toText n) :
    Accepted metric (.num n) ↔ n ≤ i64Max := by
  have isInteger : replaced value = minus false ++ toText n := isNatural
  exact accepted_integer_iff isText isInteger

theorem not_accepted_of_unreadable {metric : Metric} {value : Text}
    (isText : metric.metricValue = .text value) (noPoint : '.' ∉ replaced value)
    (unreadable : parseI64 (replaced value) = none) (amount : ExactFloat) :
    ¬ Accepted metric amount := by
  rw [accepted_iff, isText, eventNumber, if_neg noPoint, unreadable]
  rintro ⟨sent, isSent, _⟩
  cases isSent

/-- A value with a point is taken for a floating-point number. -/
theorem accepted_decimal {metric : Metric} {negative : Bool} {whole : Nat}
    {fraction : List (Fin 10)}
    (isText : metric.metricValue =
      .text (minus negative ++ (toText whole ++ '.' :: fractionText fraction))) :
    Accepted metric (.num (if negative then -(whole + fractionValue fraction)
      else whole + fractionValue fraction)) := by
  have clear : ∀ c ∈ minus negative ++ (toText whole ++ '.' :: fractionText fraction),
      c ≠ ',' ∧ c ≠ '\n' := by
    have digits : ∀ c : Char, c.isDigit = true → c ≠ ',' ∧ c ≠ '\n' := by
      intro c digit
      constructor
      · rintro rfl
        cases digit
      · rintro rfl
        cases digit
    intro c member
    rcases List.mem_append.mp member with inSign | inNumber
    · cases negative with
      | true => exact List.mem_singleton.mp inSign ▸ by decide
      | false => cases inSign
    · rcases List.mem_append.mp inNumber with inWhole | after
      · exact digits c (isDigit_of_mem_toText inWhole)
      · rcases List.mem_cons.mp after with rfl | inFraction
        · decide
        · exact digits c (isDigit_of_mem_fractionText inFraction)
  have point : '.' ∈ minus negative ++ (toText whole ++ '.' :: fractionText fraction) :=
    List.mem_append_right _ (List.mem_append_right _ List.mem_cons_self)
  rw [accepted_iff, isText, eventNumber, replaced_of_clear clear, if_pos point,
    parseF64_decimal]
  exact ⟨_, rfl, rfl⟩

theorem replaced_toText (n : Nat) : replaced (toText n) = toText n :=
  replaced_digits fun _ => isDigit_of_mem_toText

theorem replaced_integer (negative : Bool) (n : Nat) :
    replaced (minus negative ++ toText n) = minus negative ++ toText n := by
  have sign : replaced (minus negative) = minus negative := by cases negative <;> rfl
  rw [replaced_append, replaced_toText, sign]

/-- A printed floating-point number. -/
theorem accepted_float_iff {metric : Metric} (x : PrintedFloat)
    (isText : metric.metricValue = .text x.text) : Accepted metric x.amount ↔ x.Sendable := by
  cases x with
  | nan =>
      exact iff_of_false
        (not_accepted_of_unreadable isText (by decide +kernel) (by decide +kernel) _) id
  | infinite negative =>
      refine iff_of_false ?_ id
      cases negative with
      | true =>
          exact not_accepted_of_unreadable isText (by decide +kernel) (by decide +kernel) _
      | false =>
          exact not_accepted_of_unreadable isText (by decide +kernel) (by decide +kernel) _
  | decimal negative whole fraction =>
      cases fraction with
      | nil =>
          have integral := accepted_integer_iff isText (replaced_integer negative whole)
          have same : (PrintedFloat.decimal negative whole []).amount =
              .num (if negative then -(whole : ℚ) else whole) := by
            simp [PrintedFloat.amount, fractionValue]
          rw [same]
          exact integral
      | cons digit fraction =>
          have isDecimal : metric.metricValue =
              .text (minus negative ++ (toText whole ++ '.' :: fractionText (digit :: fraction))) :=
            isText
          exact iff_of_true (accepted_decimal isDecimal) trivial

theorem accepted_reading_iff {metric : Metric} (reading : Reading)
    (isValue : metric.metricValue = reading.value) :
    Accepted metric reading.amount ↔ reading.Sendable := by
  cases reading with
  | version =>
      have isVersion : getScaphandreVersion =
          minus false ++ (toText 1 ++ '.' :: fractionText [0, 0]) := by decide +kernel
      have isDecimal : metric.metricValue =
          .text (minus false ++ (toText 1 ++ '.' :: fractionText [0, 0])) := by
        rw [isValue, Reading.value, isVersion]
      refine iff_of_true ?_ trivial
      have sent := accepted_decimal isDecimal
      have one : ((1 : Nat) : ℚ) + fractionValue [0, 0] = 1 := by simp [fractionValue]
      rw [if_neg Bool.false_ne_true, one] at sent
      exact sent
  | count n =>
      rw [accepted_iff, isValue, Reading.value, eventNumber]
      by_cases fits : n ≤ i64Max
      · rw [if_pos fits]
        exact iff_of_true ⟨_, rfl, by simp [EventNumber.amount, Reading.amount]⟩ fits
      · rw [if_neg fits]
        refine iff_of_false ?_ fits
        rintro ⟨sent, isSent, _⟩
        cases isSent
  | number n => exact accepted_natural_iff isValue (replaced_toText n)
  | float x => exact accepted_float_iff x isValue
  | counterFile n newline =>
      refine accepted_natural_iff isValue ?_
      rw [replaced_append, replaced_toText]
      cases newline with
      | true => exact List.append_nil _
      | false => exact List.append_nil _

/-! ## All metrics of the program itself, the host and the sockets -/

namespace Readings

/-- The metrics with the numbers that they stand for. -/
def pushed (readings : Readings) : List (Metric × ExactFloat) :=
  (readings.genSelfMetrics ++ readings.genHostMetricsBeforeDisks).map
      (fun own => (own.metric, own.reading.amount)) ++
    (getDisks readings.disks).map
      (fun entry => (entry.1.metric entry.2.1 (.text (toText entry.2.2)), .num entry.2.2)) ++
    (readings.genHostMetricsAfterDisks ++ readings.genSocketMetrics).map
      fun own => (own.metric, own.reading.amount)

/-- They are the metrics of the three generators. -/
theorem map_fst_pushed (readings : Readings) :
    readings.pushed.map Prod.fst =
      readings.genSelfMetrics.map OwnMetric.metric ++ readings.genHostMetrics ++
        readings.genSocketMetrics.map OwnMetric.metric := by
  simp [pushed, genHostMetrics, diskMetrics, Function.comp_def]

/-- Every value that is pushed fits the type that it is taken for. -/
structure Sendable (readings : Readings) : Prop where
  own : ∀ own ∈ readings.genSelfMetrics ++ readings.genHostMetricsBeforeDisks ++
    readings.genHostMetricsAfterDisks ++ readings.genSocketMetrics, own.reading.Sendable
  disks : ∀ entry ∈ getDisks readings.disks, entry.2.2 ≤ i64Max

/-- The exporter sends every metric with its number just where the values fit. -/
theorem riemann_sends_all_iff_sendable (readings : Readings) :
    readings.pushed.map Prod.fst =
        readings.genSelfMetrics.map OwnMetric.metric ++ readings.genHostMetrics ++
          readings.genSocketMetrics.map OwnMetric.metric ∧
      ((∀ entry ∈ readings.pushed, Accepted entry.1 entry.2) ↔ readings.Sendable) := by
  refine ⟨readings.map_fst_pushed, ?_⟩
  have own : ∀ own : OwnMetric, Accepted own.metric own.reading.amount ↔ own.reading.Sendable :=
    fun own => accepted_reading_iff own.reading rfl
  have disk : ∀ entry : Family × (List (Text × Text) × Nat),
      Accepted (entry.1.metric entry.2.1 (.text (toText entry.2.2))) (.num entry.2.2) ↔
        entry.2.2 ≤ i64Max := fun entry => accepted_natural_iff rfl (replaced_toText _)
  simp only [pushed, List.forall_mem_append, List.forall_mem_map, own, disk]
  constructor
  · rintro ⟨⟨⟨self, before⟩, disks⟩, after, sockets⟩
    refine ⟨?_, disks⟩
    simp only [List.forall_mem_append]
    exact ⟨⟨⟨self, before⟩, after⟩, sockets⟩
  · rintro ⟨all, disks⟩
    simp only [List.forall_mem_append] at all
    obtain ⟨⟨⟨self, before⟩, after⟩, sockets⟩ := all
    exact ⟨⟨⟨self, before⟩, disks⟩, after, sockets⟩

/-- A machine with one record and one core, which did not leave its idle state. -/
def idleCore : Readings :=
  { TextExporter.oneProcess "sh".toList with
    records := [.number 0]
    coreCoefs := [.nan] }

/-- The coefficient of an idle core is no number, and it is not sent. -/
theorem not_riemann_sends_all_of_idle_core :
    ¬ ∀ (socket : Sensors.CPUSocket ExactFloat) (readings : Readings),
      readings.coreCoefs.map PrintedFloat.amount = socket.getCoreCoefs →
        ∀ entry ∈ readings.pushed, Accepted entry.1 entry.2 := by
  intro all
  have coefficient : (Sensors.countedSocket [⟨0, [Sensors.countedRecord 0 5 5 0 0 0,
      Sensors.countedRecord 1 5 5 10 0 0], 1⟩]).getCoreCoefs = [.nan] := by decide +kernel
  have accepted := all (Sensors.countedSocket [⟨0, [Sensors.countedRecord 0 5 5 0 0 0,
    Sensors.countedRecord 1 5 5 10 0 0], 1⟩]) idleCore (by rw [coefficient]; rfl)
  have isPushed : ((⟨.hostCoreCoefficient, [.coreId 0], .float .nan⟩ : OwnMetric).metric,
      ExactFloat.nan) ∈ idleCore.pushed := by decide +kernel
  exact (accepted_reading_iff (.float .nan) rfl).mp (accepted _ isPushed)

end Readings

end ScaphandreFormal.Exporters
