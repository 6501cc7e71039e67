import Steve.Validation.MetricCollector
import Steve.Validation.Evaluator

/-!
# Telemetry records

The result a worker reports and the summary of a whole run. Rates and latencies are exact
rationals where the source computes in floating point.
-/

namespace Steve.Validation

/-- What one core-pinned worker reports. -/
structure WorkerTelemetryResult where
  coreId : ℕ
  nodeId : String
  totalOps : ℕ
  totalBytes : ℕ
  durationSec : ℚ
  p50Ms : ℚ
  p90Ms : ℚ
  p99Ms : ℚ
  p999Ms : ℚ
  throughputGbps : ℚ
  errorMessage : Option String
  deriving DecidableEq, Repr

/-- What a whole run reports. -/
structure ClusterTelemetrySummary where
  runId : String
  targetUri : String
  totalCores : ℕ
  totalOps : ℕ
  totalBytes : ℕ
  durationSec : ℚ
  aggregateThroughputGbps : ℚ
  maxP99Ms : ℚ
  avgP99Ms : ℚ
  workers : List WorkerTelemetryResult
  divergence : Option DivergenceResult
  deriving DecidableEq, Repr

end Steve.Validation
