import Mathlib.Data.Rat.Defs

/-!
# Workload blueprints

The declarative plan of a run, with the defaults of its optional entries. The entropy
ratio is an exact rational.
-/

namespace Steve.Payload

/-- A declarative execution plan. -/
structure WorkloadBlueprint where
  runId : String
  targetUri : String
  blockSizeBytes : ℕ := 1048576
  entropyRatio : ℚ := 8 / 10
  targetThroughputGbps : ℤ := 100
  durationSeconds : ℕ := 30
  globalSeed : ℤ := 42
  deriving DecidableEq, Repr

/-- A plan with every default, writing to a relative file target. -/
def fileBlueprint : WorkloadBlueprint where
  runId := "test-run-1"
  targetUri := "file://sim_output"

end Steve.Payload
