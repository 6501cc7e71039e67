import Steve.Library.ExpositionFormat
import Steve.Validation.Reporter

/-!
# The Prometheus export of a run

The exporter writes three lines for a metric: its help, its type, and one sample labelled
with the run. The run id is copied between the quotes as it is, so the text reads back as
the intended samples exactly when the run id holds no character that the exposition format
escapes.
-/

namespace Steve.Validation

open Steve.Library
open Steve.Library.Exposition

/-- A metric of the export with the text of its value. -/
structure PrometheusMetric where
  name : String
  help : String
  type : String
  value : String

/-- The help line of a metric. -/
def PrometheusMetric.helpLine (metric : PrometheusMetric) : String :=
  "# HELP " ++ metric.name ++ " " ++ metric.help

/-- The type line of a metric. -/
def PrometheusMetric.typeLine (metric : PrometheusMetric) : String :=
  "# TYPE " ++ metric.name ++ " " ++ metric.type

/-- The sample line of a metric. -/
def PrometheusMetric.sampleLine (metric : PrometheusMetric) (runId : String) : String :=
  metric.name ++ "\x7brun_id=\"" ++ runId ++ "\"\x7d " ++ metric.value

/-- The lines of a metric. -/
def PrometheusMetric.lines (metric : PrometheusMetric) (runId : String) : List String :=
  [metric.helpLine, metric.typeLine, metric.sampleLine runId]

/-- A rate or latency as `f"{value:.4f}"` prints it. -/
def fourPlaces (value : ℚ) : String := String.ofList (fixedPoint 4 value)

namespace ClusterTelemetrySummary

/-- The metrics of a run, the last two only where a divergence was measured. -/
def prometheusMetrics (summary : ClusterTelemetrySummary) : List PrometheusMetric :=
  [⟨"steve_cluster_ops_total", "Total I/O operations completed by STEVE cluster", "counter",
      toString summary.totalOps⟩,
    ⟨"steve_cluster_bytes_total", "Total bytes transferred by STEVE cluster", "counter",
      toString summary.totalBytes⟩,
    ⟨"steve_cluster_throughput_gbps", "Aggregate cluster throughput in Gbps", "gauge",
      fourPlaces summary.aggregateThroughputGbps⟩,
    ⟨"steve_cluster_latency_p99_ms", "Maximum p99 latency observed across workers", "gauge",
      fourPlaces summary.maxP99Ms⟩] ++
  match summary.divergence with
  | none => []
  | some divergence =>
    let validInt := if divergence.isValid then 1 else 0
    [⟨"steve_telemetry_divergence_percent", "Telemetry skew vs physical probe", "gauge",
        fourPlaces divergence.divergencePercent⟩,
      ⟨"steve_telemetry_is_valid", "Boolean flag indicating telemetry validity", "gauge",
        toString validInt⟩]

/-- Export a run in the text exposition format. -/
def toPrometheusMetrics (summary : ClusterTelemetrySummary) : String :=
  "\n".intercalate (summary.prometheusMetrics.flatMap (·.lines summary.runId)) ++ "\n"

/-- The samples a run is meant to export: the counters as they are, the gauges to four
places, each under the run's id. -/
def intendedSamples (summary : ClusterTelemetrySummary) : List Sample :=
  let sample (metric : String) (value : ℚ) : Sample :=
    ⟨metric, [("run_id", summary.runId)], .finite value, none⟩
  [sample "steve_cluster_ops_total" summary.totalOps,
    sample "steve_cluster_bytes_total" summary.totalBytes,
    sample "steve_cluster_throughput_gbps" (roundedTo 4 summary.aggregateThroughputGbps),
    sample "steve_cluster_latency_p99_ms" (roundedTo 4 summary.maxP99Ms)] ++
  match summary.divergence with
  | none => []
  | some divergence =>
    [sample "steve_telemetry_divergence_percent" (roundedTo 4 divergence.divergencePercent),
      sample "steve_telemetry_is_valid" (if divergence.isValid then 1 else 0)]

end ClusterTelemetrySummary

/-- Whether a character can stand in a printed value. -/
def NumeralChar (char : Char) : Prop := char.isDigit = true ∨ char = '.' ∨ char = '-'

/-- A metric whose lines read as intended apart from the run id, and the sample it reports. -/
structure PrometheusMetric.Reads (runId : String) (metric : PrometheusMetric)
    (sample : Sample) : Prop where
  name : isName isMetricStart isMetricChar metric.name.toList = true
  help : parseLine metric.helpLine.toList = some (.help metric.name)
  helpLine : '\n' ∉ metric.helpLine.toList
  type : parseLine metric.typeLine.toList = some (.type metric.name)
  typeLine : '\n' ∉ metric.typeLine.toList
  numeral : ∀ char ∈ metric.value.toList, NumeralChar char
  sample : ∃ value, readDecimal metric.value.toList = some value ∧
    sample = ⟨metric.name, [("run_id", runId)], .finite value, none⟩

section Metrics

variable {runId : String} {metric : PrometheusMetric} {sample : Sample}

/-- The label of a sample line. -/
theorem isName_runId : isName isLabelStart isLabelChar "run_id".toList = true := by decide

/-- A sample line up to the run id, the run id, and the value. -/
theorem PrometheusMetric.toList_sampleLine (metric : PrometheusMetric) (runId : String) :
    (metric.sampleLine runId).toList = sampleHead metric.name.toList "run_id".toList ++
      (runId.toList ++ '"' :: '\x7d' :: ' ' :: metric.value.toList) := by
  simp [sampleLine, sampleHead]

/-- The value of a sample line holds no character of the format. -/
theorem PrometheusMetric.Reads.notMem_value (h : metric.Reads runId sample) {char : Char}
    (hchar : ¬NumeralChar char) : char ∉ metric.value.toList := fun hmem =>
  hchar (h.numeral char hmem)

/-- A plain run id is read back from a sample line. -/
theorem PrometheusMetric.Reads.parseLine_sampleLine (h : metric.Reads runId sample)
    (hrun : Plain runId.toList) :
    parseLine (metric.sampleLine runId).toList = some (.sample sample) := by
  obtain ⟨value, hvalue, rfl⟩ := h.sample
  have hblank : ∀ char ∈ metric.value.toList, isBlank char = false := by
    intro char hmem
    obtain hdigit | rfl | rfl := h.numeral char hmem
    · rw [isBlank, Bool.or_eq_false_iff, beq_eq_false_iff_ne, beq_eq_false_iff_ne]
      constructor
      · rintro rfl
        exact absurd hdigit (by decide)
      · rintro rfl
        exact absurd hdigit (by decide)
    · rfl
    · rfl
  have hne : metric.value.toList ≠ [] := by
    intro hnil
    rw [hnil] at hvalue
    cases hvalue
  rw [toList_sampleLine, parseLine_sample h.name isName_runId hrun hblank hne hvalue,
    String.ofList_toList, String.ofList_toList, String.ofList_toList]

/-- Without a line feed in the run id every line of a metric is one line. -/
theorem PrometheusMetric.Reads.newline_notMem (h : metric.Reads runId sample)
    (hrun : '\n' ∉ runId.toList) : ∀ line ∈ metric.lines runId, '\n' ∉ line.toList := by
  intro line hline
  simp only [lines, List.mem_cons, List.not_mem_nil, or_false] at hline
  obtain rfl | rfl | rfl := hline
  · exact h.helpLine
  · exact h.typeLine
  · have hvalue : '\n' ∉ metric.value.toList :=
      h.notMem_value (by rw [NumeralChar]; decide)
    have hhead := newline_notMem_sampleHead h.name isName_runId
    rw [toList_sampleLine, List.mem_append, List.mem_append, not_or, not_or]
    exact ⟨hhead, hrun, by simp [hvalue]⟩

/-- What the lines of a metric say. -/
def sampleEntries (sample : Sample) : List Entry :=
  [.help sample.metric, .type sample.metric, .sample sample]

/-- The lines of metrics say their help, their type and their sample in turn. -/
theorem mapM_parseLine_lines {metrics : List PrometheusMetric} {samples : List Sample}
    (h : List.Forall₂ (PrometheusMetric.Reads runId) metrics samples)
    (hrun : Plain runId.toList) :
    ((metrics.flatMap (·.lines runId)).map String.toList).mapM parseLine =
      some (samples.flatMap sampleEntries) := by
  induction h with
  | nil => rfl
  | cons hfirst _ ih =>
    have hname := hfirst.sample
    obtain ⟨value, -, rfl⟩ := hname
    have hsample := hfirst.parseLine_sampleLine hrun
    rw [List.flatMap_cons, List.map_append, List.mapM_append, ih, List.flatMap_cons]
    simp [PrometheusMetric.lines, hfirst.help, hfirst.type, hsample, sampleEntries]

/-- The samples among the lines of metrics. -/
theorem filterMap_sampleEntries (samples : List Sample) :
    (samples.flatMap sampleEntries).filterMap Entry.sample? = samples := by
  induction samples with
  | nil => rfl
  | cons sample samples ih =>
    rw [List.flatMap_cons, List.filterMap_append, ih]
    rfl

/-- Without a line feed in the run id every line of metrics is one line. -/
theorem newline_notMem_lines {metrics : List PrometheusMetric} {samples : List Sample}
    (h : List.Forall₂ (PrometheusMetric.Reads runId) metrics samples)
    (hrun : '\n' ∉ runId.toList) :
    ∀ line ∈ (metrics.flatMap (·.lines runId)).map String.toList, '\n' ∉ line := by
  induction h with
  | nil => exact fun line hline => nomatch hline
  | cons hfirst _ ih =>
    intro chars hchars
    rw [List.flatMap_cons, List.map_append, List.mem_append] at hchars
    obtain hchars | hchars := hchars
    · obtain ⟨line, hline, rfl⟩ := List.mem_map.mp hchars
      exact hfirst.newline_notMem hrun line hline
    · exact ih chars hchars

/-- The run id is plain if the first metric's sample is read back. -/
theorem PrometheusMetric.Reads.plain_of_parse (h : metric.Reads runId sample)
    {metrics : List PrometheusMetric} {samples : List Sample}
    (hparse : parse ("\n".intercalate ((metric :: metrics).flatMap (·.lines runId)) ++ "\n") =
      some (sample :: samples)) : Plain runId.toList := by
  have hhelp : Silent metric.helpLine.toList := ⟨h.helpLine, fun entry hentry => by
    rw [h.help, Option.some.injEq] at hentry
    rw [← hentry]
    rfl⟩
  have htype : Silent metric.typeLine.toList := ⟨h.typeLine, fun entry hentry => by
    rw [h.type, Option.some.injEq] at hentry
    rw [← hentry]
    rfl⟩
  have hbefore : ∀ line ∈ [metric.helpLine.toList, metric.typeLine.toList], Silent line := by
    intro line hline
    simp only [List.mem_cons, List.not_mem_nil, or_false] at hline
    obtain rfl | rfl := hline
    · exact hhelp
    · exact htype
  have hquote : '"' ∉ '\x7d' :: ' ' :: metric.value.toList := by
    have hvalue : '"' ∉ metric.value.toList := h.notMem_value (by rw [NumeralChar]; decide)
    simp [hvalue]
  have htext : ("\n".intercalate ((metric :: metrics).flatMap (·.lines runId)) ++ "\n").toList =
      [metric.helpLine.toList, metric.typeLine.toList].flatMap (· ++ ['\n']) ++
        (sampleHead metric.name.toList "run_id".toList ++
            (runId.toList ++ '"' :: '\x7d' :: ' ' :: metric.value.toList) ++
          '\n' :: ((metrics.flatMap (·.lines runId)).map String.toList).flatMap (· ++ ['\n'])) := by
    rw [toList_joinLines (by simp [lines]), ← toList_sampleLine]
    simp [lines]
  obtain ⟨value, -, hsample⟩ := h.sample
  apply Exposition.plain_of_parse hbefore h.name isName_runId hquote htext hparse
  rw [hsample, List.head?_cons, String.ofList_toList, String.ofList_toList]

/-- The characters of a line of metadata. -/
def metadataLine (keyword name text : String) : List Char :=
  '#' :: ' ' :: (keyword.toList ++ ' ' :: (name.toList ++ ' ' :: text.toList))

/-- A name, a help and a type that read back. -/
def Described (name help type : String) : Prop :=
  isName isMetricStart isMetricChar name.toList = true ∧
    parseLine (metadataLine "HELP" name help) = some (.help name) ∧
    '\n' ∉ metadataLine "HELP" name help ∧
    parseLine (metadataLine "TYPE" name type) = some (.type name) ∧
    '\n' ∉ metadataLine "TYPE" name type

instance (name help type : String) : Decidable (Described name help type) :=
  inferInstanceAs (Decidable (_ ∧ _))

/-- A described metric with a numeral for its value reads as that number. -/
theorem reads_of_numeral {name help type value : String} {number : ℚ}
    (h : Described name help type) (hnumeral : ∀ char ∈ value.toList, NumeralChar char)
    (hvalue : readDecimal value.toList = some number) :
    PrometheusMetric.Reads runId ⟨name, help, type, value⟩
      ⟨name, [("run_id", runId)], .finite number, none⟩ := by
  have hhelp : (⟨name, help, type, value⟩ : PrometheusMetric).helpLine.toList =
      metadataLine "HELP" name help := by
    simp [PrometheusMetric.helpLine, metadataLine]
  have htype : (⟨name, help, type, value⟩ : PrometheusMetric).typeLine.toList =
      metadataLine "TYPE" name type := by
    simp [PrometheusMetric.typeLine, metadataLine]
  obtain ⟨hname, hhelpEntry, hhelpLine, htypeEntry, htypeLine⟩ := h
  exact
    { name := hname
      help := by rw [hhelp, hhelpEntry]
      helpLine := by
        rw [hhelp]
        exact hhelpLine
      type := by rw [htype, htypeEntry]
      typeLine := by
        rw [htype]
        exact htypeLine
      numeral := hnumeral
      sample := ⟨number, hvalue, rfl⟩ }

/-- A counter reads as its count. -/
theorem reads_count {name help type : String} (h : Described name help type) (count : ℕ) :
    PrometheusMetric.Reads runId ⟨name, help, type, toString count⟩
      ⟨name, [("run_id", runId)], .finite count, none⟩ := by
  apply reads_of_numeral h
  · intro char hmem
    rw [Nat.toString_eq_ofList_toDigits, String.toList_ofList] at hmem
    exact Or.inl (Nat.isDigit_of_mem_toDigits (by decide) (by decide) hmem)
  · rw [Nat.toString_eq_ofList_toDigits, String.toList_ofList, readDecimal_toDigits]

/-- A printed gauge reads as its value to four places. -/
theorem readDecimal_fourPlaces (value : ℚ) :
    readDecimal (fourPlaces value).toList = some (roundedTo 4 value) := by
  rw [fourPlaces, String.toList_ofList, readDecimal_fixedPoint]

/-- A gauge reads as its value to four places. -/
theorem reads_fourPlaces {name help type : String} (h : Described name help type) (value : ℚ) :
    PrometheusMetric.Reads runId ⟨name, help, type, fourPlaces value⟩
      ⟨name, [("run_id", runId)], .finite (roundedTo 4 value), none⟩ := by
  apply reads_of_numeral h
  · intro char hmem
    rw [fourPlaces, String.toList_ofList] at hmem
    exact mem_fixedPoint hmem
  · exact readDecimal_fourPlaces value

/-- A printed gauge reads within half a unit of the fourth place. -/
theorem fourPlaces_close (value : ℚ) :
    ∃ printed, readDecimal (fourPlaces value).toList = some printed ∧
      |printed - value| ≤ 1 / 2 / 10 ^ 4 :=
  ⟨roundedTo 4 value, readDecimal_fourPlaces value, abs_roundedTo_sub_le 4 value⟩

end Metrics

namespace ClusterTelemetrySummary

/-- The metrics of a run report its intended samples. -/
theorem prometheusMetrics_reads (summary : ClusterTelemetrySummary) :
    List.Forall₂ (PrometheusMetric.Reads summary.runId) summary.prometheusMetrics
      summary.intendedSamples := by
  refine List.rel_append ?_ ?_
  · exact .cons (reads_count (by decide +kernel) _) <|
      .cons (reads_count (by decide +kernel) _) <|
      .cons (reads_fourPlaces (by decide +kernel) _) <|
      .cons (reads_fourPlaces (by decide +kernel) _) .nil
  cases summary.divergence with
  | none => exact .nil
  | some divergence =>
    have hvalid : ((if divergence.isValid then 1 else 0 : ℕ) : ℚ) =
        if divergence.isValid then 1 else 0 := by push_cast; rfl
    refine .cons (reads_fourPlaces (by decide +kernel) _) (.cons ?_ .nil)
    rw [← hvalid]
    exact reads_count (by decide +kernel) _

/-- Metadata comes once for a metric and before its sample. -/
theorem wellOrdered_intendedSamples (summary : ClusterTelemetrySummary) :
    wellOrdered [] (summary.intendedSamples.flatMap sampleEntries) = true := by
  rw [intendedSamples]
  cases summary.divergence <;> rfl

/-- The exported characters are those of the lines, each with a line feed. -/
theorem toList_toPrometheusMetrics (summary : ClusterTelemetrySummary) :
    summary.toPrometheusMetrics.toList =
      ((summary.prometheusMetrics.flatMap (·.lines summary.runId)).map String.toList).flatMap
        (· ++ ['\n']) :=
  toList_joinLines (List.cons_ne_nil _ _)

/-- An export that reads back as intended is of a plain run id. -/
theorem plain_of_parse_export {summary : ClusterTelemetrySummary}
    (h : parse summary.toPrometheusMetrics = some summary.intendedSamples) :
    Plain summary.runId.toList := by
  obtain ⟨hfirst, -⟩ := List.forall₂_cons.mp summary.prometheusMetrics_reads
  exact hfirst.plain_of_parse h

/-- The export reads back as the intended samples exactly when the run id holds no double
quote, no backslash and no line feed. -/
theorem prometheus_roundTrips_iff (summary : ClusterTelemetrySummary) :
    parse summary.toPrometheusMetrics = some summary.intendedSamples ↔
      Plain summary.runId.toList := by
  constructor
  · exact plain_of_parse_export
  · intro h
    have hlines := newline_notMem_lines summary.prometheusMetrics_reads (h '\n' (by decide))
    have hentries := mapM_parseLine_lines summary.prometheusMetrics_reads h
    rw [parse, toList_toPrometheusMetrics, splitLines_flatMap hlines]
    simp only [Option.bind_eq_bind, Option.bind_some]
    rw [hentries, Option.bind_some, if_pos summary.wellOrdered_intendedSamples,
      filterMap_sampleEntries]

/-- A run whose id closes its own label and opens another one. -/
def forgedRun : ClusterTelemetrySummary where
  runId := "x\"\x7d 1\nsteve_telemetry_is_valid\x7brun_id=\"x"
  targetUri := "file:///tmp/steve"
  totalCores := 1
  totalOps := 5
  totalBytes := 20480
  durationSec := 1
  aggregateThroughputGbps := 1 / 8
  maxP99Ms := 2
  avgP99Ms := 2
  workers := []
  divergence := none

/-- The forged run does not read back as its intended samples. -/
theorem prometheus_forgedRun :
    parse forgedRun.toPrometheusMetrics ≠ some forgedRun.intendedSamples := fun h =>
  absurd (plain_of_parse_export h) (by decide)

end ClusterTelemetrySummary

end Steve.Validation
