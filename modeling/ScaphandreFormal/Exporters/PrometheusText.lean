import ScaphandreFormal.Exporters.Prometheus
import ScaphandreFormal.Foundation.Exposition

/-!
# Reading the body back

The body of a response is read back with the grammar of the text format.  Label values lose
their quotes and backslashes when they are written, but a newline in one is written as it
is, and the names of the labels and the values of the metrics are not looked at.
-/

namespace ScaphandreFormal.Exporters

open Foundation Exposition

/-- The replacements in `format_prometheus_metric`. -/
def sanitized (value : Text) : Text :=
  (value.map fun c => if c = '"' then '_' else c).filter (· ≠ '\\')

/-- The replacements that are meant to be made: newlines go, too. -/
def documented (value : Text) : Text := (sanitized value).filter (· ≠ '\n')

namespace Metric

/-- The sample that stands for the metric. -/
def sample (metric : Metric) : Sample where
  name := metric.name
  labels := metric.attributes.map fun label => (label.1, documented label.2)
  value := trim metric.metricValue.toText

/-- The name, the type and the description are those of a metric family, and the text of the
value ends in a newline at most. -/
structure Headed (metric : Metric) : Prop where
  name : isMetricName metric.name = true
  metricType : metric.metricType ∈ metricTypes
  description : '\n' ∉ metric.description
  value : metric.metricValue.toText = trim metric.metricValue.toText ∨
    metric.metricValue.toText = trim metric.metricValue.toText ++ ['\n']

/-- The metric can be read back. -/
structure Readable (metric : Metric) : Prop where
  names : ∀ label ∈ metric.attributes, isLabelName label.1 = true
  values : ∀ label ∈ metric.attributes, '\n' ∉ label.2
  number : isNumber (trim metric.metricValue.toText) = true

end Metric

/-! ## One line -/

theorem isPlain_of_mem_sanitized {value : Text} {c : Char} (member : c ∈ sanitized value) :
    isPlain c = true := by
  obtain ⟨kept, notBackslash⟩ := List.mem_filter.mp member
  obtain ⟨original, _, replaced⟩ := List.mem_map.mp kept
  have notQuote : c ≠ '"' := by
    rintro rfl
    split at replaced
    · exact absurd replaced (by decide)
    · contradiction
  simp [isPlain, notQuote, of_decide_eq_true notBackslash]

theorem newline_mem_sanitized_iff (value : Text) : '\n' ∈ sanitized value ↔ '\n' ∈ value := by
  constructor
  · intro member
    obtain ⟨original, isOriginal, replaced⟩ := List.mem_map.mp (List.mem_filter.mp member).1
    split at replaced
    · exact absurd replaced (by decide)
    · exact replaced ▸ isOriginal
  · intro member
    refine List.mem_filter.mpr ⟨List.mem_map.mpr ⟨'\n', member, by decide⟩, by decide⟩

theorem sanitized_newline (part more : Text) :
    sanitized (part ++ '\n' :: more) = sanitized part ++ '\n' :: sanitized more := by
  simp [sanitized]

theorem documented_of_not_mem {value : Text} (single : '\n' ∉ value) :
    documented value = sanitized value := by
  refine List.filter_eq_self.mpr ?_
  intro c member
  have differs : c ≠ '\n' := by
    rintro rfl
    exact single ((newline_mem_sanitized_iff value).mp member)
  exact decide_eq_true differs

/-- The labels as they are written. -/
def written (labels : List (Text × Text)) : List (Text × Text) :=
  labels.map fun label => (label.1, sanitized label.2)

theorem flatMap_formatLabel (labels : List (Text × Text)) :
    labels.flatMap formatLabel = listed (written labels) := by
  induction labels with
  | nil => rfl
  | cons label rest ih =>
      rw [List.flatMap_cons, ih]
      simp [written, listed, formatLabel, opened, sanitized]

theorem written_eq_documented {labels : List (Text × Text)}
    (values : ∀ label ∈ labels, '\n' ∉ label.2) :
    (labels.map fun label => (label.1, documented label.2)) = written labels := by
  apply List.map_congr_left
  intro label isLabel
  rw [documented_of_not_mem (values label isLabel)]

theorem writable_of_mem_written {labels : List (Text × Text)}
    (names : ∀ label ∈ labels, isLabelName label.1 = true) :
    ∀ entry ∈ written labels, Writable entry := by
  intro entry member
  obtain ⟨label, isLabel, rfl⟩ := List.mem_map.mp member
  exact ⟨names label isLabel, fun c => isPlain_of_mem_sanitized⟩

namespace Metric

theorem line_unlabelled {metric : Metric} (unlabelled : metric.attributes = []) :
    metric.line = metric.name ++ ' ' :: metric.metricValue.toText ++ ['\n'] := by
  simp [line, unlabelled, formatPrometheusMetric]

theorem line_labelled {metric : Metric} {before : List (Text × Text)} {last : Text × Text}
    (labelled : metric.attributes = before ++ [last]) :
    metric.line = metric.name ++ '\x7b' :: (listed (written before) ++
      opened last.1 (sanitized last.2) ++ '"' :: '\x7d' :: ' ' :: metric.metricValue.toText) ++
        ['\n'] := by
  have shape : metric.name ++ ['\x7b'] ++ metric.attributes.flatMap formatLabel =
      metric.name ++ '\x7b' :: (listed (written before) ++ opened last.1 (sanitized last.2) ++
        ['"']) ++ [','] := by
    rw [labelled, flatMap_formatLabel]
    simp [written, listed]
  have nonempty : metric.attributes.isEmpty = false := by simp [labelled]
  rw [line, nonempty]
  simp only [Bool.false_eq_true, if_false, formatPrometheusMetric]
  rw [shape, List.dropLast_concat]
  simp

theorem parse_ended {line tail : Text} (single : '\n' ∉ line) (blank : parse tail = some []) :
    parse (line ++ '\n' :: tail) = parseLine line := by
  rw [parse_append, parse_line single, blank]
  cases parseLine line with
  | none => rfl
  | some found => simp

/-- A line with a value that may bring its own newline. -/
theorem parse_valued {start token text : Text} (shape : text = token ∨ text = token ++ ['\n'])
    (single : '\n' ∉ start ++ token) :
    parse (start ++ text ++ ['\n']) = parseLine (start ++ token) := by
  rcases shape with rfl | rfl
  · exact parse_ended single rfl
  · have ended : start ++ (token ++ ['\n']) ++ ['\n'] = start ++ token ++ '\n' :: ['\n'] := by
      simp
    rw [ended]
    exact parse_ended single rfl

theorem newline_not_mem_of_isLabelName {name : Text} (valid : isLabelName name = true) :
    '\n' ∉ name := by
  intro member
  exact absurd (isLabelChar_of_isLabelName valid _ member) (by decide)

theorem newline_not_mem_opened {name value : Text} (valid : isLabelName name = true)
    (single : '\n' ∉ value) : '\n' ∉ opened name value := by
  have := newline_not_mem_of_isLabelName valid
  simp [opened, this, single]

theorem newline_not_mem_listed {labels : List (Text × Text)}
    (names : ∀ label ∈ labels, isLabelName label.1 = true)
    (values : ∀ label ∈ labels, '\n' ∉ label.2) : '\n' ∉ listed (written labels) := by
  intro member
  obtain ⟨entry, isEntry, inside⟩ := List.mem_flatMap.mp member
  obtain ⟨label, isLabel, rfl⟩ := List.mem_map.mp isEntry
  have single : '\n' ∉ sanitized label.2 := by
    rw [newline_mem_sanitized_iff]
    exact values label isLabel
  have clean := newline_not_mem_opened (names label isLabel) single
  rcases List.mem_append.mp inside with here | tail
  · exact clean here
  · exact absurd tail (by decide)

theorem newline_not_mem_of_isNumber {token : Text} (number : isNumber token = true) :
    '\n' ∉ token := by
  intro member
  exact absurd (isNumberChar_of_isNumber number _ member) (by decide)

theorem parseLine_named {name : Text} (valid : isMetricName name = true) (rest : Text) :
    parseLine (name ++ rest) = (Exposition.sample (name ++ rest)).map fun parsed => [parsed] := by
  cases name with
  | nil => cases valid
  | cons first others =>
      exact parseLine_sample (isMetricChar_of_isMetricName valid first List.mem_cons_self) _

/-- The line of a metric that can be read back is read back as its sample. -/
theorem parse_line_of_readable {metric : Metric} (headed : metric.Headed)
    (readable : metric.Readable) : parse metric.line = some [metric.sample] := by
  have singleName := newline_not_mem_of_isMetricName headed.name
  have singleValue := newline_not_mem_of_isNumber readable.number
  rcases List.eq_nil_or_concat metric.attributes with unlabelled | ⟨before, last, labelled⟩
  · have whole : metric.line =
        metric.name ++ [' '] ++ metric.metricValue.toText ++ ['\n'] := by
      rw [line_unlabelled unlabelled]
      simp
    have read := sample_unlabelled headed.name readable.number
    rw [whole, parse_valued headed.value (by simp [singleName, singleValue]), List.append_assoc,
      parseLine_named headed.name, List.singleton_append, read]
    simp [sample, unlabelled]
  · rw [List.concat_eq_append] at labelled
    have names := readable.names
    have values := readable.values
    rw [labelled] at names values
    obtain ⟨namesBefore, nameLast⟩ := List.forall_mem_append.mp names
    obtain ⟨valuesBefore, valueLast⟩ := List.forall_mem_append.mp values
    have validLast := nameLast last (List.mem_singleton_self _)
    have singleLast := valueLast last (List.mem_singleton_self _)
    have whole : metric.line = metric.name ++ '\x7b' :: (listed (written before) ++
        opened last.1 (sanitized last.2) ++ ['"', '\x7d', ' ']) ++ metric.metricValue.toText ++
          ['\n'] := by
      rw [line_labelled labelled]
      simp
    have single : '\n' ∉ metric.name ++ '\x7b' :: (listed (written before) ++
        opened last.1 (sanitized last.2) ++ ['"', '\x7d', ' ']) ++
          trim metric.metricValue.toText := by
      have inList := newline_not_mem_listed namesBefore valuesBefore
      have inLast := newline_not_mem_opened validLast
        (mt (newline_mem_sanitized_iff last.2).mp singleLast)
      simp [singleName, singleValue, inList, inLast]
    have read := @sample_labelled metric.name _ (written before) (last.1, sanitized last.2)
      headed.name (writable_of_mem_written namesBefore)
      ⟨validLast, fun c => isPlain_of_mem_sanitized⟩ readable.number
    have reshaped : metric.name ++ '\x7b' :: (listed (written before) ++
        opened last.1 (sanitized last.2) ++ ['"', '\x7d', ' ']) ++
          trim metric.metricValue.toText =
        metric.name ++ '\x7b' :: (listed (written before) ++ opened last.1 (sanitized last.2) ++
          '"' :: '\x7d' :: ' ' :: trim metric.metricValue.toText) := by
      simp
    rw [whole, parse_valued headed.value single, reshaped, parseLine_named headed.name, read,
      sample, written_eq_documented readable.values, labelled]
    simp [written]

/-- The first label whose value holds a newline, and the first newline in it. -/
theorem exists_first_newline {labels : List (Text × Text)}
    (broken : ∃ label ∈ labels, '\n' ∈ label.2) :
    ∃ before name part more after, labels = before ++ (name, part ++ '\n' :: more) :: after ∧
      '\n' ∉ part ∧ ∀ label ∈ before, '\n' ∉ label.2 := by
  cases found : labels.find? fun label => '\n' ∈ label.2 with
  | none =>
      obtain ⟨label, isLabel, inside⟩ := broken
      have clean := List.find?_eq_none.mp found label isLabel
      exact absurd inside (by simpa using clean)
  | some label =>
      obtain ⟨inside, before, after, whole, clean⟩ := List.find?_eq_some_iff_append.mp found
      obtain ⟨part, more, value, single⟩ := List.eq_append_cons_of_mem (of_decide_eq_true inside)
      refine ⟨before, label.1, part, more, after, ?_, single, ?_⟩
      · rw [whole, ← value]
      · intro other isOther
        simpa using clean other isOther

/-- A newline in a label value leaves a line that nothing reads. -/
theorem parse_line_of_newline {metric : Metric} (named : isMetricName metric.name = true)
    (names : ∀ label ∈ metric.attributes, isLabelName label.1 = true)
    (broken : ∃ label ∈ metric.attributes, '\n' ∈ label.2) : parse metric.line = none := by
  obtain ⟨before, name, part, more, after, split, single, clean⟩ := exists_first_newline broken
  rw [split] at names
  obtain ⟨namesBefore, namesAfter⟩ := List.forall_mem_append.mp names
  have validName : isLabelName name = true := namesAfter _ List.mem_cons_self
  have plain : ∀ c ∈ sanitized part, isPlain c = true := fun c => isPlain_of_mem_sanitized
  have shape : metric.name ++ ['\x7b'] ++ metric.attributes.flatMap formatLabel =
      metric.name ++ '\x7b' :: (listed (written before) ++ opened name (sanitized part)) ++
        '\n' :: (sanitized more ++ ['"', ','] ++ listed (written after)) := by
    rw [split, flatMap_formatLabel]
    simp [written, listed, opened, sanitized_newline]
  obtain ⟨tail, whole⟩ : ∃ tail, metric.line =
      metric.name ++ '\x7b' :: (listed (written before) ++ opened name (sanitized part)) ++
        '\n' :: tail := by
    have nonempty : metric.attributes.isEmpty = false := by simp [split]
    rw [line, nonempty]
    simp only [Bool.false_eq_true, if_false, formatPrometheusMetric]
    rw [shape, List.dropLast_append_of_ne_nil (List.cons_ne_nil _ _),
      List.dropLast_cons_of_ne_nil (by simp)]
    exact ⟨_, by simp only [List.append_assoc, List.cons_append]; rfl⟩
  have oneLine : '\n' ∉ metric.name ++ '\x7b' ::
      (listed (written before) ++ opened name (sanitized part)) := by
    have inList := newline_not_mem_listed namesBefore clean
    have inLast := newline_not_mem_opened validName
      (mt (newline_mem_sanitized_iff part).mp single)
    have inName := newline_not_mem_of_isMetricName named
    simp [inList, inLast, inName]
  rw [whole, parse_append, parse_line oneLine, parseLine_named named,
    sample_unclosed named (writable_of_mem_written namesBefore) validName plain]
  rfl

end Metric

/-! ## The body -/

/-- The text is empty or ends its last line. -/
def Ended (text : Text) : Prop := text = [] ∨ ∃ start, text = start ++ ['\n']

theorem parse_ended_append {text : Text} (ended : Ended text) (more : Text) :
    parse (text ++ more) =
      (parse text).bind fun before => (parse more).map fun after => before ++ after := by
  rcases ended with rfl | ⟨start, rfl⟩
  · rw [List.nil_append, parse_nil]
    cases parse more with
    | none => rfl
    | some after => rfl
  · rw [List.append_assoc, List.singleton_append, parse_append, parse_append, parse_nil]
    cases parse start with
    | none => rfl
    | some before =>
        cases parse more with
        | none => rfl
        | some after => simp

theorem ended_line (metric : Metric) : Ended metric.line := Or.inr ⟨_, rfl⟩

theorem parse_pushMetric {body : Text} {metric : Metric} (headed : metric.Headed)
    (ended : Ended body) (addHelp : Bool) :
    parse (pushMetric body metric.description metric.metricType metric.name metric.line addHelp) =
      (parse body).bind fun before => (parse metric.line).map fun after => before ++ after := by
  cases addHelp with
  | false => exact parse_ended_append ended metric.line
  | true =>
      have shape : pushMetric body metric.description metric.metricType metric.name metric.line
          true = body ++ (metadata "HELP".toList metric.name metric.description ++ '\n' ::
            (metadata "TYPE".toList metric.name metric.metricType ++ '\n' :: metric.line)) := by
        simp [pushMetric, metadata]
      have inner : parse (metadata "HELP".toList metric.name metric.description ++ '\n' ::
          (metadata "TYPE".toList metric.name metric.metricType ++ '\n' :: metric.line)) =
            parse metric.line := by
        rw [parse_append, parse_help headed.name headed.description, parse_append,
          parse_type headed.name headed.metricType]
        cases parse metric.line with
        | none => rfl
        | some found => rfl
      rw [shape, parse_ended_append ended, inner]

theorem ended_pushMetric (body : Text) (metric : Metric) (addHelp : Bool) :
    Ended (pushMetric body metric.description metric.metricType metric.name metric.line
      addHelp) := by
  obtain ⟨head, shape⟩ :=
    pushMetric_eq body metric.description metric.metricType metric.name metric.line addHelp
  rcases ended_line metric with empty | ⟨start, ends⟩
  · exact absurd empty (by simp [Metric.line, formatPrometheusMetric])
  · exact Or.inr ⟨body ++ head ++ start, by rw [shape, ends]; simp⟩

/-- The body is read back line by line. -/
theorem parse_pushMetrics {metrics : List Metric} (headed : ∀ metric ∈ metrics, metric.Headed)
    (pushed : List Text) {body : Text} (ended : Ended body) :
    parse (pushMetrics metrics pushed body) =
      (parse body).bind fun before =>
        (metrics.mapM fun metric => parse metric.line).map fun groups =>
          before ++ groups.flatten := by
  induction metrics generalizing pushed body with
  | nil =>
      rw [pushMetrics]
      cases parse body with
      | none => rfl
      | some before => simp
  | cons msg rest ih =>
      obtain ⟨here, later⟩ := List.forall_mem_cons.mp headed
      have next : ∀ addHelp pushed, parse (pushMetrics rest pushed
          (pushMetric body msg.description msg.metricType msg.name msg.line addHelp)) =
          (parse body).bind fun before =>
            ((msg :: rest).mapM fun metric => parse metric.line).map fun groups =>
              before ++ groups.flatten := by
        intro addHelp pushed
        rw [ih later pushed (ended_pushMetric body msg addHelp),
          parse_pushMetric here ended addHelp, List.mapM_cons]
        cases parse body with
        | none => rfl
        | some before =>
            cases parse msg.line with
            | none => rfl
            | some found =>
                cases rest.mapM fun metric => parse metric.line with
                | none => rfl
                | some groups => simp
      rw [pushMetrics]
      split
      · exact next false _
      · exact next true _

/-- The body is read back as the samples of the metrics just when each metric can be. -/
theorem parse_body_iff {metrics : List Metric} (headed : ∀ metric ∈ metrics, metric.Headed) :
    parse (pushMetrics metrics [] []) = some (metrics.map Metric.sample) ↔
      ∀ metric ∈ metrics, metric.Readable := by
  have whole := parse_pushMetrics headed [] (Or.inl rfl)
  rw [parse_nil, Option.bind_some] at whole
  simp only [List.nil_append] at whole
  constructor
  · intro read metric member
    obtain ⟨names, number⟩ := wellFormed_of_parse read metric.sample (List.mem_map_of_mem member)
    have validNames : ∀ label ∈ metric.attributes, isLabelName label.1 = true :=
      fun label isLabel => names (label.1, documented label.2)
        (List.mem_map.mpr ⟨label, isLabel, rfl⟩)
    refine ⟨validNames, ?_, number⟩
    intro label isLabel newline
    rw [whole] at read
    obtain ⟨groups, each, _⟩ := Option.map_eq_some_iff.mp read
    obtain ⟨group, _, parsed⟩ := (exists_mem_of_mapM_eq_some each).1 metric member
    rw [Metric.parse_line_of_newline (headed metric member).name validNames
      ⟨label, isLabel, newline⟩] at parsed
    cases parsed
  · intro readable
    rw [whole, mapM_eq_some fun metric member =>
      Metric.parse_line_of_readable (headed metric member) (readable metric member)]
    rw [Option.map_some, ← List.flatMap_def, ← List.map_eq_flatMap]

end ScaphandreFormal.Exporters
