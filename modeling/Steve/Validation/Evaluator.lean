import Mathlib.Data.Rat.Defs
import Mathlib.Algebra.Order.Ring.Rat

/-!
# Telemetry triangulation

The probe counts the bytes an interface moved; the evaluator compares them with the bytes
the clients report. The percentages are read as exact rationals.
-/

namespace Steve.Validation

/-- The probe's byte and packet counters. -/
structure EBPFProbe where
  txBytes : ℕ
  rxBytes : ℕ
  txPackets : ℕ
  rxPackets : ℕ
  deriving DecidableEq, Repr

/-- One update of the trace counters. -/
structure ProbeActivity where
  txBytes : ℕ
  rxBytes : ℕ
  txPkts : ℕ
  rxPkts : ℕ
  deriving DecidableEq, Repr

namespace EBPFProbe

/-- A new probe has counted nothing. -/
def init : EBPFProbe := ⟨0, 0, 0, 0⟩

/-- Update the trace counters. -/
def recordActivity (probe : EBPFProbe) (activity : ProbeActivity) : EBPFProbe where
  txBytes := probe.txBytes + activity.txBytes
  rxBytes := probe.rxBytes + activity.rxBytes
  txPackets := probe.txPackets + activity.txPkts
  rxPackets := probe.rxPackets + activity.rxPkts

/-- The bytes received and sent together. -/
def sampleBytesTransferred (probe : EBPFProbe) : ℕ := probe.rxBytes + probe.txBytes

end EBPFProbe

/-- The evaluator's verdict on one pair of counts. -/
structure DivergenceResult where
  clientBytes : ℕ
  probeBytes : ℕ
  deltaBytes : ℕ
  divergencePercent : ℚ
  isValid : Bool
  deriving DecidableEq, Repr

/-- An evaluator with its skew threshold. -/
structure TelemetryEvaluator where
  skewThresholdPercent : ℚ := 1 / 10

/-- The skew of the client count against the probe's, and whether it is tolerated. -/
def TelemetryEvaluator.evaluate (evaluator : TelemetryEvaluator) (clientBytes probeBytes : ℕ) :
    DivergenceResult :=
  let delta := ((clientBytes : ℤ) - probeBytes).natAbs
  let denom := max probeBytes 1
  let divergencePct := (delta / denom : ℚ) * 100
  { clientBytes := clientBytes
    probeBytes := probeBytes
    deltaBytes := delta
    divergencePercent := divergencePct
    isValid := decide (divergencePct ≤ evaluator.skewThresholdPercent) }

end Steve.Validation
