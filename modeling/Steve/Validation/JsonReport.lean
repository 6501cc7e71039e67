import Steve.Validation.Reporter
import Steve.Library.JsonRoundTrip

/-!
# The JSON report

A summary as nested dictionaries and as indented JSON text. The text is read back as the
dictionaries at every indentation, and the dictionaries determine the summary: two
summaries with one text are equal, even if the texts are indented differently.

How the language writes a float is a parameter. It is a literal, and different floats have
different literals.
-/

namespace Steve.Validation

open Steve.Library

/-- The floats of the language and their texts. -/
structure FloatFormat where
  isFloat : ℚ → Prop
  repr : ℚ → String
  floatText : ∀ value, isFloat value → FloatText (repr value)
  injective : ∀ value other, isFloat value → isFloat other → repr value = repr other →
    value = other

variable (format : FloatFormat)

/-- `asdict(result)`. -/
def WorkerTelemetryResult.toDict (result : WorkerTelemetryResult) : PyValue :=
  .dict
    [("core_id", .int result.coreId), ("node_id", .str result.nodeId),
      ("total_ops", .int result.totalOps), ("total_bytes", .int result.totalBytes),
      ("duration_sec", .float (format.repr result.durationSec)),
      ("p50_ms", .float (format.repr result.p50Ms)),
      ("p90_ms", .float (format.repr result.p90Ms)),
      ("p99_ms", .float (format.repr result.p99Ms)),
      ("p999_ms", .float (format.repr result.p999Ms)),
      ("throughput_gbps", .float (format.repr result.throughputGbps)),
      ("error_message", match result.errorMessage with
        | none => .none
        | some message => .str message)]

/-- `asdict(divergence)`. -/
def DivergenceResult.toDict (divergence : DivergenceResult) : PyValue :=
  .dict
    [("client_bytes", .int divergence.clientBytes), ("probe_bytes", .int divergence.probeBytes),
      ("delta_bytes", .int divergence.deltaBytes),
      ("divergence_percent", .float (format.repr divergence.divergencePercent)),
      ("is_valid", .bool divergence.isValid)]

/-- Serialize a summary to a dictionary. -/
def ClusterTelemetrySummary.toDict (summary : ClusterTelemetrySummary) : PyValue :=
  .dict
    [("run_id", .str summary.runId), ("target_uri", .str summary.targetUri),
      ("total_cores", .int summary.totalCores), ("total_ops", .int summary.totalOps),
      ("total_bytes", .int summary.totalBytes),
      ("duration_sec", .float (format.repr summary.durationSec)),
      ("aggregate_throughput_gbps", .float (format.repr summary.aggregateThroughputGbps)),
      ("max_p99_ms", .float (format.repr summary.maxP99Ms)),
      ("avg_p99_ms", .float (format.repr summary.avgP99Ms)),
      ("workers", .list (summary.workers.map (WorkerTelemetryResult.toDict format))),
      ("divergence", match summary.divergence with
        | none => .none
        | some divergence => divergence.toDict format)]

/-- Serialize a summary to JSON text; a negative indentation is none. -/
def ClusterTelemetrySummary.toJson (summary : ClusterTelemetrySummary) (indent : ℤ) :
    Except String String :=
  (summary.toDict format).dumpsIndented indent.toNat

/-- The rates and latencies of a worker's result. -/
def WorkerTelemetryResult.floats (result : WorkerTelemetryResult) : List ℚ :=
  [result.durationSec, result.p50Ms, result.p90Ms, result.p99Ms, result.p999Ms,
    result.throughputGbps]

/-- The rates and latencies of a summary. -/
def ClusterTelemetrySummary.floats (summary : ClusterTelemetrySummary) : List ℚ :=
  [summary.durationSec, summary.aggregateThroughputGbps, summary.maxP99Ms, summary.avgP99Ms] ++
    (summary.workers.flatMap WorkerTelemetryResult.floats ++
      summary.divergence.toList.map DivergenceResult.divergencePercent)

section Workers

variable {format}

/-- A worker's dictionary is a value that JSON knows. -/
theorem WorkerTelemetryResult.toDict_valid {result : WorkerTelemetryResult}
    (h : ∀ value ∈ result.floats, format.isFloat value) :
    (result.toDict format).WellFormed ∧ (result.toDict format).Encodable := by
  have htext : ∀ value ∈ result.floats, FloatText (format.repr value) :=
    fun value hvalue => format.floatText value (h value hvalue)
  simp only [floats, List.forall_mem_cons] at htext
  obtain ⟨hduration, hp50, hp90, hp99, hp999, hrate, -⟩ := htext
  constructor
  · simp only [toDict, PyValue.WellFormed, PyValue.WellFormedEntries, true_and, and_true]
    refine ⟨?_, hduration, hp50, hp90, hp99, hp999, hrate, ?_⟩
    · simp only [List.map_cons, List.map_nil]
      decide
    · cases result.errorMessage <;> simp [PyValue.WellFormed]
  · simp only [toDict, PyValue.Encodable, PyValue.EncodableEntries, true_and, and_true]
    cases result.errorMessage <;> simp [PyValue.Encodable]

/-- A worker's dictionary determines its result. -/
theorem WorkerTelemetryResult.toDict_injective {result other : WorkerTelemetryResult}
    (h : ∀ value ∈ result.floats, format.isFloat value)
    (hother : ∀ value ∈ other.floats, format.isFloat value)
    (hsame : result.toDict format = other.toDict format) : result = other := by
  obtain ⟨coreId, nodeId, totalOps, totalBytes, durationSec, p50Ms, p90Ms, p99Ms, p999Ms,
    throughputGbps, errorMessage⟩ := result
  obtain ⟨coreId', nodeId', totalOps', totalBytes', durationSec', p50Ms', p90Ms', p99Ms', p999Ms',
    throughputGbps', errorMessage'⟩ := other
  simp only [floats, List.forall_mem_cons] at h hother
  simp only [toDict, PyValue.dict.injEq, List.cons.injEq, Prod.mk.injEq, true_and, and_true,
    PyValue.int.injEq, PyValue.str.injEq, PyValue.float.injEq, Int.natCast_inj] at hsame
  obtain ⟨rfl, rfl, rfl, rfl, hduration, hp50, hp90, hp99, hp999, hrate, hmessage⟩ := hsame
  obtain ⟨h1, h2, h3, h4, h5, h6, -⟩ := h
  obtain ⟨h1', h2', h3', h4', h5', h6', -⟩ := hother
  obtain rfl := format.injective _ _ h1 h1' hduration
  obtain rfl := format.injective _ _ h2 h2' hp50
  obtain rfl := format.injective _ _ h3 h3' hp90
  obtain rfl := format.injective _ _ h4 h4' hp99
  obtain rfl := format.injective _ _ h5 h5' hp999
  obtain rfl := format.injective _ _ h6 h6' hrate
  cases errorMessage <;> cases errorMessage' <;> simp_all

/-- The dictionaries of workers determine their results. -/
theorem map_toDict_injective {workers others : List WorkerTelemetryResult}
    (h : ∀ worker ∈ workers, ∀ value ∈ worker.floats, format.isFloat value)
    (hother : ∀ worker ∈ others, ∀ value ∈ worker.floats, format.isFloat value)
    (hsame : workers.map (WorkerTelemetryResult.toDict format) =
      others.map (WorkerTelemetryResult.toDict format)) : workers = others := by
  induction workers generalizing others with
  | nil => exact (List.map_eq_nil_iff.mp hsame.symm).symm
  | cons worker workers ih =>
    cases others with
    | nil => cases hsame
    | cons other others =>
      rw [List.map_cons, List.map_cons, List.cons.injEq] at hsame
      rw [List.forall_mem_cons] at h hother
      rw [WorkerTelemetryResult.toDict_injective h.1 hother.1 hsame.1,
        ih h.2 hother.2 hsame.2]

end Workers

section Summaries

variable {format}

/-- A divergence's dictionary determines it. -/
theorem DivergenceResult.toDict_injective {divergence other : DivergenceResult}
    (h : format.isFloat divergence.divergencePercent)
    (hother : format.isFloat other.divergencePercent)
    (hsame : divergence.toDict format = other.toDict format) : divergence = other := by
  obtain ⟨clientBytes, probeBytes, deltaBytes, divergencePercent, isValid⟩ := divergence
  obtain ⟨clientBytes', probeBytes', deltaBytes', divergencePercent', isValid'⟩ := other
  simp only [toDict, PyValue.dict.injEq, List.cons.injEq, Prod.mk.injEq, true_and, and_true,
    PyValue.int.injEq, PyValue.float.injEq, PyValue.bool.injEq, Int.natCast_inj] at hsame
  obtain ⟨rfl, rfl, rfl, hpercent, rfl⟩ := hsame
  obtain rfl := format.injective _ _ h hother hpercent
  rfl

/-- The floats of a summary are its own, those of its workers and that of its divergence. -/
theorem ClusterTelemetrySummary.forall_floats {summary : ClusterTelemetrySummary}
    (h : ∀ value ∈ summary.floats, format.isFloat value) :
    (format.isFloat summary.durationSec ∧ format.isFloat summary.aggregateThroughputGbps ∧
      format.isFloat summary.maxP99Ms ∧ format.isFloat summary.avgP99Ms) ∧
    (∀ worker ∈ summary.workers, ∀ value ∈ worker.floats, format.isFloat value) ∧
      ∀ divergence, summary.divergence = some divergence →
        format.isFloat divergence.divergencePercent := by
  rw [floats, List.forall_mem_append, List.forall_mem_append] at h
  simp only [List.forall_mem_cons] at h
  obtain ⟨⟨hduration, hrate, hmax, havg, -⟩, h⟩ := h
  refine ⟨⟨hduration, hrate, hmax, havg⟩, fun worker hworker value hvalue => ?_, fun divergence hdivergence => ?_⟩
  · exact h.1 value (List.mem_flatMap.mpr ⟨worker, hworker, hvalue⟩)
  · apply h.2
    rw [hdivergence]
    exact List.mem_singleton.mpr rfl

/-- A summary's dictionary is a value that JSON knows. -/
theorem ClusterTelemetrySummary.toDict_valid {summary : ClusterTelemetrySummary}
    (h : ∀ value ∈ summary.floats, format.isFloat value) :
    (summary.toDict format).WellFormed ∧ (summary.toDict format).Encodable := by
  obtain ⟨⟨hduration, hrate, hmax, havg⟩, hworkers, hdivergence⟩ := forall_floats h
  have hvalid : ∀ worker ∈ summary.workers.map (WorkerTelemetryResult.toDict format),
      worker.WellFormed ∧ worker.Encodable := by
    intro worker hworker
    obtain ⟨result, hresult, rfl⟩ := List.mem_map.mp hworker
    exact WorkerTelemetryResult.toDict_valid (hworkers result hresult)
  constructor
  · simp only [toDict, PyValue.WellFormed, PyValue.WellFormedEntries, true_and, and_true,
      PyValue.wellFormedItems_iff]
    refine ⟨?_, format.floatText _ hduration, format.floatText _ hrate, format.floatText _ hmax,
      format.floatText _ havg, fun worker hworker => (hvalid worker hworker).1, ?_⟩
    · simp only [List.map_cons, List.map_nil]
      decide
    · cases hresult : summary.divergence with
      | none => simp [PyValue.WellFormed]
      | some divergence =>
        simp only [DivergenceResult.toDict, PyValue.WellFormed, PyValue.WellFormedEntries,
          true_and, and_true, List.map_cons, List.map_nil]
        exact ⟨by decide, format.floatText _ (hdivergence divergence hresult)⟩
  · simp only [toDict, PyValue.Encodable, PyValue.EncodableEntries, true_and, and_true,
      PyValue.encodableItems_iff]
    refine ⟨fun worker hworker => (hvalid worker hworker).2, ?_⟩
    cases summary.divergence <;>
      simp [PyValue.Encodable, DivergenceResult.toDict, PyValue.EncodableEntries]

/-- A summary's dictionary determines it. -/
theorem ClusterTelemetrySummary.toDict_injective {summary other : ClusterTelemetrySummary}
    (h : ∀ value ∈ summary.floats, format.isFloat value)
    (hother : ∀ value ∈ other.floats, format.isFloat value)
    (hsame : summary.toDict format = other.toDict format) : summary = other := by
  obtain ⟨⟨h1, h2, h3, h4⟩, hworkers, hdivergence⟩ := forall_floats h
  obtain ⟨⟨h1', h2', h3', h4'⟩, hworkers', hdivergence'⟩ := forall_floats hother
  obtain ⟨runId, targetUri, totalCores, totalOps, totalBytes, durationSec, rate, maxP99Ms, avgP99Ms,
    workers, divergence⟩ := summary
  obtain ⟨runId', targetUri', totalCores', totalOps', totalBytes', durationSec', rate', maxP99Ms',
    avgP99Ms', workers', divergence'⟩ := other
  simp only [toDict, PyValue.dict.injEq, List.cons.injEq, Prod.mk.injEq, true_and, and_true,
    PyValue.int.injEq, PyValue.str.injEq, PyValue.float.injEq, PyValue.list.injEq,
    Int.natCast_inj] at hsame
  obtain ⟨rfl, rfl, rfl, rfl, rfl, hduration, hrate, hmax, havg, hlist, hresult⟩ := hsame
  obtain rfl := format.injective _ _ h1 h1' hduration
  obtain rfl := format.injective _ _ h2 h2' hrate
  obtain rfl := format.injective _ _ h3 h3' hmax
  obtain rfl := format.injective _ _ h4 h4' havg
  obtain rfl := map_toDict_injective hworkers hworkers' hlist
  cases divergence with
  | none =>
    cases divergence' with
    | none => rfl
    | some divergence' => simp [DivergenceResult.toDict] at hresult
  | some divergence =>
    cases divergence' with
    | none => simp [DivergenceResult.toDict] at hresult
    | some divergence' =>
      rw [DivergenceResult.toDict_injective (hdivergence _ rfl) (hdivergence' _ rfl) hresult]

end Summaries

/-- The JSON text of a summary is read back as its dictionary at every indentation, and no
other summary has such a text at any. -/
theorem toJson_reads_back (summary : ClusterTelemetrySummary)
    (hfloats : ∀ value ∈ summary.floats, format.isFloat value) (indent : ℤ) :
    ∃ text, summary.toJson format indent = .ok text ∧ loads text = some (summary.toDict format) ∧
      ∀ (other : ClusterTelemetrySummary) (indent' : ℤ),
        (∀ value ∈ other.floats, format.isFloat value) →
          other.toJson format indent' = .ok text → other = summary := by
  obtain ⟨hvalid, hencodable⟩ := ClusterTelemetrySummary.toDict_valid hfloats
  obtain ⟨text, htext, hread⟩ := exists_dumpsIndented hvalid hencodable indent.toNat
  refine ⟨text, htext, hread, fun other indent' hother hsame => ?_⟩
  obtain ⟨hvalid', hencodable'⟩ := ClusterTelemetrySummary.toDict_valid hother
  obtain ⟨text', htext', hread'⟩ := exists_dumpsIndented hvalid' hencodable' indent'.toNat
  rw [ClusterTelemetrySummary.toJson, htext', Except.ok.injEq] at hsame
  rw [hsame, hread, Option.some.injEq] at hread'
  exact ClusterTelemetrySummary.toDict_injective hother hfloats hread'.symm

/-- The decimals of a number of eighths below one. -/
def eighthDigits : ℕ → List Char
  | 0 => ['0']
  | 1 => ['1', '2', '5']
  | 2 => ['2', '5']
  | 3 => ['3', '7', '5']
  | 4 => ['5']
  | 5 => ['6', '2', '5']
  | 6 => ['7', '5']
  | _ => ['8', '7', '5']

/-- A number of eighths written out. -/
def eighthsText (eighths : ℕ) : List Char :=
  Nat.toDigits 10 (eighths / 8) ++ '.' :: eighthDigits (eighths % 8)

/-- Decimals are digits, and there are some. -/
theorem eighthDigits_isDigit (eighths : ℕ) :
    eighthDigits eighths ≠ [] ∧ ∀ char ∈ eighthDigits eighths, char.isDigit = true := by
  rw [eighthDigits.eq_def]
  split
  all_goals exact ⟨List.cons_ne_nil _ _, List.all_eq_true.mp rfl⟩

/-- Different numbers of eighths have different texts. -/
theorem eighthsText_injective {left right : ℕ} (h : eighthsText left = eighthsText right) :
    left = right := by
  have hpoint (eighths : ℕ) : ∀ char ∈ ('.' :: eighthDigits (eighths % 8)).head?,
      char.isDigit = false := by simp
  obtain ⟨hleft, hleftRest⟩ := takeWhile_isDigit_toDigits (left / 8) _ (hpoint left)
  obtain ⟨hright, hrightRest⟩ := takeWhile_isDigit_toDigits (right / 8) _ (hpoint right)
  rw [eighthsText, eighthsText] at h
  have hwhole : left / 8 = right / 8 := by
    have hdigits : Nat.toDigits 10 (left / 8) = Nat.toDigits 10 (right / 8) := by
      rw [← hleft, ← hright, h]
    rw [← Nat.ofDigitChars_ten_toDigits (n := left / 8), hdigits, Nat.ofDigitChars_ten_toDigits]
  have hdecimals : eighthDigits (left % 8) = eighthDigits (right % 8) := by
    rw [h, hrightRest, List.cons.injEq] at hleftRest
    exact hleftRest.2.symm
  have hparts : ∀ first < 8, ∀ second < 8,
      eighthDigits first = eighthDigits second → first = second := by
    decide
  have hpart := hparts _ (Nat.mod_lt left (by decide)) _ (Nat.mod_lt right (by decide)) hdecimals
  omega

/-- The eighths below a million million, each of which the language writes out. -/
def eighthsFormat : FloatFormat where
  isFloat value := ∃ eighths < 8 * 10 ^ 12, value = (eighths : ℕ) / 8
  repr value := String.ofList (eighthsText (value * 8).num.toNat)
  floatText value hvalue := by
    obtain ⟨hsome, hdigits⟩ := eighthDigits_isDigit ((value * 8).num.toNat % 8)
    refine Or.inr ⟨[], List.mem_cons_self, (value * 8).num.toNat / 8,
      '.' :: eighthDigits ((value * 8).num.toNat % 8), [], ?_, ?_, Or.inl rfl, ?_⟩
    · rw [String.toList_ofList, List.append_nil, List.nil_append]
      rfl
    · exact Or.inr ⟨_, rfl, hsome, hdigits⟩
    · intro h
      exact List.cons_ne_nil _ _ h.1
  injective value other hvalue hother hsame := by
    have heighths (eighths : ℕ) : ((eighths : ℚ) / 8 * 8).num.toNat = eighths := by
      rw [div_mul_cancel₀ _ (by norm_num : (8 : ℚ) ≠ 0), Rat.num_natCast, Int.toNat_natCast]
    obtain ⟨left, -, rfl⟩ := hvalue
    obtain ⟨right, -, rfl⟩ := hother
    rw [heighths, heighths, String.ofList_inj] at hsame
    rw [eighthsText_injective hsame]

/-- A summary of one failed worker. -/
def failedSummary : ClusterTelemetrySummary where
  runId := "run-1"
  targetUri := "posix:///data"
  totalCores := 1
  totalOps := 0
  totalBytes := 0
  durationSec := 5 / 8
  aggregateThroughputGbps := 0
  maxP99Ms := 0
  avgP99Ms := 0
  workers := [⟨0, "node-0", 0, 0, 5 / 8, 0, 0, 0, 0, 0, some "open failed"⟩]
  divergence := some ⟨0, 0, 0, 0, true⟩

/-- Its report is read back, and no other summary has that report. -/
theorem toJson_reads_back_failed :
    ∃ text, failedSummary.toJson eighthsFormat 2 = .ok text ∧
      loads text = some (failedSummary.toDict eighthsFormat) ∧
        ∀ (other : ClusterTelemetrySummary) (indent' : ℤ),
          (∀ value ∈ other.floats, eighthsFormat.isFloat value) →
            other.toJson eighthsFormat indent' = .ok text → other = failedSummary :=
  toJson_reads_back eighthsFormat failedSummary (by
    have hzero : eighthsFormat.isFloat 0 := ⟨0, by decide, by norm_num⟩
    have hduration : eighthsFormat.isFloat (5 / 8) := ⟨5, by decide, by norm_num⟩
    intro value hvalue
    simp only [failedSummary, ClusterTelemetrySummary.floats, WorkerTelemetryResult.floats,
      List.flatMap_cons, List.flatMap_nil, List.append_nil, Option.toList_some, List.map_cons,
      List.map_nil, List.mem_append, List.mem_cons, List.not_mem_nil, or_false] at hvalue
    obtain (rfl | rfl | rfl | rfl) | (rfl | rfl | rfl | rfl | rfl | rfl) | rfl := hvalue
    all_goals first
      | exact hzero
      | exact hduration) 2

end Steve.Validation
