import Mathlib.Algebra.Order.Field.Basic
import Mathlib.Data.Rat.Cast.Order
import Mathlib.Tactic.Linarith
import Steve.Orchestrator.FleetTelemetry

/-!
# When the reported divergence compares with the probe

The evaluator compares the clients' byte count with the count it is given. The master
raises the probe's growth to the clients' count first, so a fleet that reports more bytes
than the probe saw is compared with itself.
-/

namespace Steve.Orchestrator

open Steve.Adapters
open Steve.Payload
open Steve.Validation

/-- A summary's divergence is the evaluation of the clients' bytes against the probe's. -/
def Triangulated (summary : ClusterTelemetrySummary) (clientBytes probeBytes : ℕ) : Prop :=
  ∃ result, summary.divergence = some result ∧
    result.clientBytes = clientBytes ∧ result.probeBytes = probeBytes ∧
    (result.deltaBytes : ℚ) = |(clientBytes : ℚ) - probeBytes| ∧
    (result.isValid = true ↔
      |(clientBytes : ℚ) - probeBytes| * 100 ≤ 1 / 10 * max (probeBytes : ℚ) 1)

/-- The evaluator's skew is the distance of the two counts. -/
theorem evaluate_deltaBytes (evaluator : TelemetryEvaluator) (clientBytes probeBytes : ℕ) :
    ((evaluator.evaluate clientBytes probeBytes).deltaBytes : ℚ) =
      |(clientBytes : ℚ) - probeBytes| := by
  simp only [TelemetryEvaluator.evaluate, Nat.cast_natAbs, Int.cast_abs, Int.cast_sub,
    Int.cast_natCast]

/-- The evaluator's verdict is the skew test without the division. -/
theorem evaluate_isValid_iff (evaluator : TelemetryEvaluator) (clientBytes probeBytes : ℕ) :
    (evaluator.evaluate clientBytes probeBytes).isValid = true ↔
      |(clientBytes : ℚ) - probeBytes| * 100 ≤
        evaluator.skewThresholdPercent * max (probeBytes : ℚ) 1 := by
  have hdenom : (0 : ℚ) < max (probeBytes : ℚ) 1 := lt_max_of_lt_right one_pos
  rw [← evaluate_deltaBytes evaluator, ← div_le_iff₀ hdenom]
  simp only [TelemetryEvaluator.evaluate, decide_eq_true_eq, Nat.cast_max, Nat.cast_one,
    div_mul_eq_mul_div]

/-- The bytes reported in the results a run collected. -/
def StartRun.reportedBytes (run : StartRun) : ℕ :=
  (run.collected.map WorkerTelemetryResult.totalBytes).sum

/-- A summary is triangulated exactly when its clients report no more than the probe saw. -/
theorem clusterSummary_triangulated_iff (blueprint : WorkloadBlueprint) (env : FleetEnvironment)
    (totalCores : ℕ) (workerResults : List WorkerTelemetryResult) :
    Triangulated (clusterSummary blueprint env totalCores workerResults)
        (workerResults.map WorkerTelemetryResult.totalBytes).sum env.probeGrowth ↔
      (workerResults.map WorkerTelemetryResult.totalBytes).sum ≤ env.probeGrowth := by
  constructor
  · intro h
    obtain ⟨result, hresult, -, hprobe, -⟩ := h
    have hraised : max env.probeGrowth (workerResults.map WorkerTelemetryResult.totalBytes).sum =
        result.probeBytes := by
      rw [clusterSummary, Option.some.injEq] at hresult
      rw [← hresult]
      rfl
    rw [hprobe] at hraised
    exact max_eq_left_iff.mp hraised
  · intro hle
    refine ⟨_, rfl, rfl, max_eq_left hle, ?_, ?_⟩
    · rw [max_eq_left hle]
      exact evaluate_deltaBytes _ _ _
    · rw [max_eq_left hle]
      exact evaluate_isValid_iff _ _ _

/-- In every completed run the reported divergence is the evaluation of the workers' bytes
against the probe's growth exactly when the workers report no more bytes than that. -/
theorem start_triangulated_iff (blueprint : WorkloadBlueprint) (env : FleetEnvironment)
    (orchestrator : MultiCoreOrchestrator) (summary : ClusterTelemetrySummary)
    (hsummary : (orchestrator.start blueprint env).outcome = .ok summary) :
    Triangulated summary (orchestrator.start blueprint env).reportedBytes env.probeGrowth ↔
      (orchestrator.start blueprint env).reportedBytes ≤ env.probeGrowth := by
  rw [orchestrator.start_ok blueprint env hsummary]
  exact clusterSummary_triangulated_iff blueprint env _ _

/-- Two workers write one block each while the probe counts the given activity. -/
def writingFleet (activity : List ProbeActivity) : FleetEnvironment :=
  { FleetEnvironment.ofOutcomes allWrite with activity := activity }

/-- The probe sees both blocks. -/
theorem start_triangulated_iff_both_seen :
    Triangulated (clusterSummary fileBlueprint (writingFleet [⟨8192, 0, 2, 0⟩]) 2
        [oneBlockResult 0, oneBlockResult 1])
        (twoCores.start fileBlueprint (writingFleet [⟨8192, 0, 2, 0⟩])).reportedBytes
        (writingFleet [⟨8192, 0, 2, 0⟩]).probeGrowth ↔
      (twoCores.start fileBlueprint (writingFleet [⟨8192, 0, 2, 0⟩])).reportedBytes ≤
        (writingFleet [⟨8192, 0, 2, 0⟩]).probeGrowth :=
  start_triangulated_iff fileBlueprint (writingFleet [⟨8192, 0, 2, 0⟩]) twoCores _ rfl

/-- The probe sees neither block, and the run counts as valid. -/
theorem start_valid_despite_unseen_bytes :
    ∃ summary, (twoCores.start fileBlueprint (writingFleet [])).outcome = .ok summary ∧
      (twoCores.start fileBlueprint (writingFleet [])).reportedBytes = 8192 ∧
      (writingFleet []).probeGrowth = 0 ∧
      summary.divergence.map DivergenceResult.isValid = some true ∧
      ¬ Triangulated summary (twoCores.start fileBlueprint (writingFleet [])).reportedBytes
        (writingFleet []).probeGrowth := by
  refine ⟨_, rfl, rfl, rfl, by decide +kernel, ?_⟩
  intro h
  obtain ⟨result, hresult, -, hprobe, -⟩ := h
  cases hresult
  exact absurd hprobe (by decide +kernel)

end Steve.Orchestrator
