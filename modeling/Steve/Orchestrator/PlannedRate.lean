import Mathlib.Tactic.FieldSimp
import Steve.Orchestrator.Master

/-!
# The planned rate and the reported rate

A blueprint gives its target in gigabits per second, and a run is reported in them: eight
bits a byte, `10 ^ 9` bits a gigabit. The shards get their rates from the target times
`2 ^ 30` bytes, split by floor division. The two units agree only where that division
leaves every core nothing.
-/

namespace Steve.Orchestrator

open Steve.Payload
open Steve.Validation

variable (blueprint : WorkloadBlueprint)

/-- The bytes a second assigned to all shards of the controller's node. -/
def MultiCoreOrchestrator.assignedBps (orchestrator : MultiCoreOrchestrator) : ℤ :=
  ((orchestrator.localShards blueprint).map WorkerShardSpec.targetThroughputBps).sum

/-- A target and an assigned rate agree up to what an integer division over the cores, and one
by eight, can lose. -/
def SameUnit (targetGbps : ℤ) (cores : ℕ) (bps : ℤ) : Prop :=
  0 ≤ targetGbps * 10 ^ 9 - 8 * bps ∧ targetGbps * 10 ^ 9 - 8 * bps < 8 * (cores + 1)

/-- The cores get equal shares of the target's gibibytes. -/
theorem assignedBps_eq (orchestrator : MultiCoreOrchestrator)
    (hcores : orchestrator.coreIds ≠ []) :
    orchestrator.assignedBps blueprint = orchestrator.coreIds.length *
      (blueprint.targetThroughputGbps * 1024 ^ 3 / orchestrator.coreIds.length) := by
  have hlength : orchestrator.coreIds.length ≠ 0 := mt List.length_eq_zero_iff.mp hcores
  have hshare : perCoreThroughput (blueprint.targetThroughputGbps * 1024 ^ 3)
      orchestrator.coreIds.length =
        blueprint.targetThroughputGbps * 1024 ^ 3 / orchestrator.coreIds.length := by
    rw [perCoreThroughput, if_neg hlength, Int.fdiv_eq_ediv_of_nonneg _ (Int.natCast_nonneg _)]
  have hconst : WorkerShardSpec.targetThroughputBps ∘ (fun i =>
      shardSpec blueprint.globalSeed orchestrator.coreIds.length
        (perCoreThroughput (blueprint.targetThroughputGbps * 1024 ^ 3) orchestrator.coreIds.length)
        blueprint.blockSizeBytes orchestrator.nodeId i i) =
      fun _ => blueprint.targetThroughputGbps * 1024 ^ 3 / orchestrator.coreIds.length := by
    funext i
    exact hshare
  rw [MultiCoreOrchestrator.assignedBps, MultiCoreOrchestrator.localShards_eq, List.map_map,
    hconst, List.map_const', List.sum_replicate, List.length_range, nsmul_eq_mul]

/-- A fleet that moves its assigned bytes each second is reported at eight bits a byte. -/
theorem clusterSummary_gbps (env : FleetEnvironment) (cores : ℕ)
    (workerResults : List WorkerTelemetryResult) {bps : ℤ} (helapsed : 1 / 1000000 ≤ env.elapsedSec)
    (hmoved : ((workerResults.map WorkerTelemetryResult.totalBytes).sum : ℚ) =
      bps * env.elapsedSec) :
    (clusterSummary blueprint env cores workerResults).aggregateThroughputGbps * 10 ^ 9 =
      8 * bps := by
  have hpos : env.elapsedSec ≠ 0 := by
    intro hzero
    rw [hzero] at helapsed
    exact absurd helapsed (by norm_num)
  simp only [clusterSummary, max_eq_left helapsed]
  rw [Nat.cast_mul, hmoved]
  push_cast
  field_simp
  norm_num

/-- So the reported rate is the target, up to integer-division loss, exactly when the assigned
rate is in the unit of the report. -/
theorem reported_sameUnit_iff (env : FleetEnvironment) (cores : ℕ)
    (workerResults : List WorkerTelemetryResult) {bps : ℤ} (helapsed : 1 / 1000000 ≤ env.elapsedSec)
    (hmoved : ((workerResults.map WorkerTelemetryResult.totalBytes).sum : ℚ) =
      bps * env.elapsedSec) :
    let reported :=
      (clusterSummary blueprint env cores workerResults).aggregateThroughputGbps * 10 ^ 9
    let target : ℚ := blueprint.targetThroughputGbps * 10 ^ 9
    (0 ≤ target - reported ∧ target - reported < 8 * (cores + 1)) ↔
      SameUnit blueprint.targetThroughputGbps cores bps := by
  simp only [clusterSummary_gbps blueprint env cores workerResults helapsed hmoved, SameUnit]
  constructor
  · intro h
    exact_mod_cast h
  · intro h
    exact_mod_cast h

/-- A floor division of at least the divisor keeps more than half of it. -/
theorem mul_ediv_gt_half {total cores : ℤ} (hcores : 0 < cores) (h : cores ≤ total) :
    total < 2 * (cores * (total / cores)) := by
  have hone : 1 ≤ total / cores := (Int.le_ediv_iff_mul_le hcores).mpr (by omega)
  have hrest : total % cores < cores := Int.emod_lt_of_pos total hcores
  have hsplit : cores * (total / cores) + total % cores = total := Int.mul_ediv_add_emod total cores
  have hkept : cores * 1 ≤ cores * (total / cores) :=
    Int.mul_le_mul_of_nonneg_left hone (Int.le_of_lt hcores)
  omega

/-- The planned rate is in the unit of the report exactly when the target has fewer bytes than
there are cores, so that no shard gets any. -/
theorem plannedRate_sameUnit_iff (orchestrator : MultiCoreOrchestrator)
    (hcores : orchestrator.coreIds ≠ []) (htarget : 0 ≤ blueprint.targetThroughputGbps) :
    SameUnit blueprint.targetThroughputGbps orchestrator.coreIds.length
        (orchestrator.assignedBps blueprint) ↔
      blueprint.targetThroughputGbps * 2 ^ 30 < orchestrator.coreIds.length := by
  have hpos : (0 : ℤ) < orchestrator.coreIds.length :=
    Int.natCast_pos.mpr (List.length_pos_iff.mpr hcores)
  rw [assignedBps_eq blueprint orchestrator hcores, SameUnit]
  generalize (orchestrator.coreIds.length : ℤ) = cores at hpos ⊢
  generalize blueprint.targetThroughputGbps = target at htarget ⊢
  constructor
  · intro h
    by_contra hmany
    have hmost : cores ≤ target * 1024 ^ 3 := by omega
    have hhalf := mul_ediv_gt_half hpos hmost
    omega
  · intro hfew
    have hnone : target * 1024 ^ 3 / cores = 0 := Int.ediv_eq_zero_of_lt (by omega) (by omega)
    rw [hnone]
    omega

/-- A target of no gigabits is planned as it is reported. -/
theorem plannedRate_sameUnit_idle :
    let orchestrator : MultiCoreOrchestrator := ⟨[0, 1], "node-1"⟩
    let blueprint := { fileBlueprint with targetThroughputGbps := 0 }
    SameUnit 0 2 (orchestrator.assignedBps blueprint) :=
  (plannedRate_sameUnit_iff { fileBlueprint with targetThroughputGbps := 0 } ⟨[0, 1], "node-1"⟩
    (List.cons_ne_nil _ _) (by decide)).mpr (by decide)

/-- One gigabit a second on one core is planned as `2 ^ 30` bytes a second, more than eight
times the target. -/
theorem plannedRate_one_gigabit :
    let orchestrator : MultiCoreOrchestrator := ⟨[0], "node-1"⟩
    let blueprint := { fileBlueprint with targetThroughputGbps := 1 }
    orchestrator.assignedBps blueprint = 2 ^ 30 ∧
      ¬ SameUnit blueprint.targetThroughputGbps orchestrator.coreIds.length
        (orchestrator.assignedBps blueprint) := by
  intro orchestrator blueprint
  have hassigned : orchestrator.assignedBps blueprint = 2 ^ 30 :=
    (assignedBps_eq blueprint orchestrator (List.cons_ne_nil _ _)).trans (by decide)
  refine ⟨hassigned, ?_⟩
  rw [hassigned]
  intro h
  exact absurd h.1 (by decide)

end Steve.Orchestrator
