import Mathlib.Algebra.Order.Floor.Semifield
import Mathlib.Tactic.NormNum
import Steve.Orchestrator.ReportOnDisk
import Steve.Orchestrator.WorkerTelemetry

/-!
# When the cluster's tail latency is not under-reported

A worker's 99th percentile is the least power of two that leaves at most a hundredth of its
operations, rounded up, at or above it. Rounding up for each worker allows for more slow
operations in all than rounding up once, so the merged percentile can lie above every
worker's own.
-/

namespace Steve.Orchestrator

open Steve.Library
open Steve.Adapters
open Steve.Payload
open Steve.Validation

/-- A bound is at most a nonempty list's maximum exactly when it is at most some entry. -/
theorem le_listMax_iff {values : List ℚ} (h : values ≠ []) (bound : ℚ) :
    bound ≤ listMax values ↔ ∃ value ∈ values, bound ≤ value := by
  cases values with
  | nil => exact absurd rfl h
  | cons first rest =>
    rw [listMax]
    clear h
    induction rest generalizing first with
    | nil => simp
    | cons second rest ih =>
      rw [List.foldl_cons, ih (max first second)]
      simp only [List.mem_cons, exists_eq_or_imp, le_max_iff, or_assoc]

/-- The operations at least as slow as a power of two. -/
def slowCount (exponent : ℕ) (latencies : List ℕ) : ℕ :=
  latencies.countP fun latency => decide (2 ^ exponent ≤ latency)

/-- A hundredth of the operations, rounded up. -/
def tailAllowance (operations : ℕ) : ℕ := (operations + 99) / 100

/-- Whatever power of two leaves every worker within its tail allowance leaves all of them
together within theirs. -/
def TailsAddUp (histories : List (List ℕ)) : Prop :=
  ∀ exponent < 63, (∀ latencies ∈ histories,
      slowCount exponent latencies ≤ tailAllowance latencies.length) →
    slowCount exponent histories.flatten ≤ tailAllowance histories.flatten.length

/-- The rank of the 99th percentile leaves the tail allowance. -/
theorem targetCount_p99 (latencies : List ℕ) :
    (MetricCollector.init.recordAll latencies).targetCount (99 / 100) =
      latencies.length - tailAllowance latencies.length := by
  have hops : (MetricCollector.init.recordAll latencies).totalOps = latencies.length := by
    rw [MetricCollector.recordAll_totalOps, MetricCollector.init, Nat.zero_add]
  have hclamp : min (max (99 / 100 : ℚ) 0) 1 = 99 / 100 := by norm_num
  have hfloor : ⌊(latencies.length : ℚ) * (99 / 100)⌋₊ = latencies.length * 99 / 100 := by
    rw [← Nat.floor_div_eq_div (K := ℚ)]
    push_cast
    rw [mul_div_assoc]
  rw [MetricCollector.targetCount, hops, hclamp, hfloor, tailAllowance]
  omega

/-- Below the last bucket, the operations bucketed up to an exponent are those not slower
than its power of two. -/
theorem countP_bucketIndex {exponent : ℕ} (hexponent : exponent < 63) (latencies : List ℕ) :
    latencies.countP (fun latency => decide (bucketIndex latency ≤ exponent)) =
      latencies.length - slowCount exponent latencies := by
  have hsplit := List.length_eq_countP_add_countP (fun latency => decide (2 ^ exponent ≤ latency))
    (l := latencies)
  have hnot : latencies.countP (fun latency => decide (bucketIndex latency ≤ exponent)) =
      latencies.countP fun latency => decide ¬ decide (2 ^ exponent ≤ latency) = true := by
    apply List.countP_congr
    intro latency _
    simp only [bucketIndex_le_iff, decide_eq_true_eq]
    omega
  rw [hnot, slowCount]
  omega

/-- A nonempty history's 99th percentile is the least power of two within its allowance. -/
theorem p99LatencyMs_spec {latencies : List ℕ} (h : latencies ≠ []) :
    ∃ bucket, bucket < 64 ∧
      (MetricCollector.init.recordAll latencies).p99LatencyMs = 2 ^ bucket / 1000000 ∧
      ∀ exponent < 63, bucket ≤ exponent ↔
        slowCount exponent latencies ≤ tailAllowance latencies.length := by
  obtain ⟨bucket, hlt, hvalue, hiff⟩ := MetricCollector.percentileMs_spec h (99 / 100)
  refine ⟨bucket, hlt, hvalue, ?_⟩
  intro exponent hexponent
  have hslow : slowCount exponent latencies ≤ latencies.length := List.countP_le_length
  have hallowance : tailAllowance latencies.length ≤ latencies.length := by
    unfold tailAllowance
    omega
  rw [hiff, targetCount_p99, countP_bucketIndex hexponent]
  omega

/-- An exponent below 64 is at most another one of a family exactly when every bound on the
family below 63 bounds it. -/
theorem exists_le_iff_forall_bound {ι : Type*} {family : List ι} {exponents : ι → ℕ} {merged : ℕ}
    (hne : family ≠ []) (hmerged : merged < 64) :
    (∃ i ∈ family, merged ≤ exponents i) ↔
      ∀ bound < 63, (∀ i ∈ family, exponents i ≤ bound) → merged ≤ bound := by
  constructor
  · intro h bound _ hbound
    obtain ⟨i, hi, hle⟩ := h
    exact hle.trans (hbound i hi)
  · intro h
    by_contra hnone
    have hlt : ∀ i ∈ family, exponents i < merged := by
      intro i hi
      by_contra hle
      exact hnone ⟨i, hi, Nat.le_of_not_lt hle⟩
    obtain ⟨i, hi⟩ := List.exists_mem_of_ne_nil family hne
    have hpos := hlt i hi
    have hself := h (merged - 1) (by omega) (fun j hj => Nat.le_sub_one_of_lt (hlt j hj))
    omega

/-- Some worker's 99th percentile reaches the merged one exactly when the tails add up. -/
theorem exists_p99_ge_iff {histories : List (List ℕ)} (hne : histories ≠ [])
    (hops : ∀ latencies ∈ histories, latencies ≠ []) :
    (∃ latencies ∈ histories,
        (MetricCollector.init.recordAll histories.flatten).p99LatencyMs ≤
          (MetricCollector.init.recordAll latencies).p99LatencyMs) ↔
      TailsAddUp histories := by
  have hflatten : histories.flatten ≠ [] := by
    obtain ⟨latencies, hmem⟩ := List.exists_mem_of_ne_nil histories hne
    obtain ⟨latency, hlatency⟩ := List.exists_mem_of_ne_nil latencies (hops latencies hmem)
    exact List.ne_nil_of_mem (List.mem_flatten.mpr ⟨latencies, hmem, hlatency⟩)
  obtain ⟨merged, hmerged, hvalue, hiff⟩ := p99LatencyMs_spec hflatten
  have hspec : ∀ latencies ∈ histories, ∃ bucket,
      (MetricCollector.init.recordAll latencies).p99LatencyMs = 2 ^ bucket / 1000000 ∧
        ∀ exponent < 63, bucket ≤ exponent ↔
          slowCount exponent latencies ≤ tailAllowance latencies.length := by
    intro latencies hmem
    obtain ⟨bucket, -, h⟩ := p99LatencyMs_spec (hops latencies hmem)
    exact ⟨bucket, h⟩
  choose! bucket hbucket hbound using hspec
  have hcompare : ∀ latencies ∈ histories,
      (MetricCollector.init.recordAll histories.flatten).p99LatencyMs ≤
          (MetricCollector.init.recordAll latencies).p99LatencyMs ↔
        merged ≤ bucket latencies := by
    intro latencies hmem
    rw [hvalue, hbucket latencies hmem, div_le_div_iff_of_pos_right (by norm_num)]
    exact pow_le_pow_iff_right₀ (by norm_num)
  have hcollect : (∃ latencies ∈ histories,
      (MetricCollector.init.recordAll histories.flatten).p99LatencyMs ≤
        (MetricCollector.init.recordAll latencies).p99LatencyMs) ↔
      ∃ latencies ∈ histories, merged ≤ bucket latencies :=
    exists_congr fun latencies => and_congr_right (hcompare latencies)
  rw [hcollect, exists_le_iff_forall_bound hne hmerged]
  apply forall₂_congr
  intro exponent hexponent
  rw [hiff exponent hexponent]
  apply imp_congr_left
  apply forall₂_congr
  intro latencies hmem
  exact hbound latencies hmem exponent hexponent

/-- The slow operations of a family are those of its members. -/
theorem slowCount_flatten (exponent : ℕ) (histories : List (List ℕ)) :
    slowCount exponent histories.flatten = (histories.map (slowCount exponent)).sum := by
  rw [slowCount, List.countP_flatten]
  rfl

/-- The tails add up whatever the latencies exactly when rounding up for each worker allows
no more than rounding up once. -/
theorem tailsAddUp_of_sizes_iff (sizes : List ℕ) :
    (∀ histories : List (List ℕ), histories.map List.length = sizes → TailsAddUp histories) ↔
      (sizes.map tailAllowance).sum ≤ tailAllowance sizes.sum := by
  constructor
  · intro h
    -- every worker uses up its allowance with operations that are just slow enough
    let history (n : ℕ) : List ℕ :=
      List.replicate (n - tailAllowance n) 0 ++ List.replicate (tailAllowance n) 1
    have hlength (n : ℕ) : (history n).length = n := by
      simp only [history, List.length_append, List.length_replicate, tailAllowance]
      omega
    have hslow (n : ℕ) : slowCount 0 (history n) = tailAllowance n := by
      simp [history, slowCount, List.countP_append, List.countP_replicate]
    have hsizes : (sizes.map history).map List.length = sizes := by
      simp only [List.map_map, Function.comp_def, hlength, List.map_id']
    have htails := h (sizes.map history) hsizes 0 (by decide) (by
      intro latencies hmem
      obtain ⟨n, _, rfl⟩ := List.mem_map.mp hmem
      rw [hslow, hlength])
    rw [slowCount_flatten, List.length_flatten, hsizes] at htails
    simpa only [List.map_map, Function.comp_def, hslow] using htails
  · intro h histories hsizes exponent _ hwithin
    rw [slowCount_flatten, List.length_flatten, hsizes]
    apply Nat.le_trans _ h
    rw [← hsizes, List.map_map]
    exact List.sum_le_sum hwithin

/-- A fleet whose workers each complete and report the percentile of their own history. -/
structure MeasuredFleet (blueprint : WorkloadBlueprint) (env : FleetEnvironment)
    (orchestrator : MultiCoreOrchestrator) (adapterCls : AdapterClass)
    (results : ℕ → WorkerTelemetryResult) (histories : ℕ → List ℕ) : Prop where
  put : ∀ i < orchestrator.coreIds.length,
    (env.process i (orchestrator.processArgs blueprint adapterCls i)).put = [results i]
  clean : ∀ i < orchestrator.coreIds.length, (results i).errorMessage = none
  nonempty : ∀ i < orchestrator.coreIds.length, histories i ≠ []
  p99 : ∀ i < orchestrator.coreIds.length, (results i).p99Ms =
    (MetricCollector.init.recordAll (histories i)).p99LatencyMs

section Fleet

variable (blueprint : WorkloadBlueprint) (env : FleetEnvironment)
  (orchestrator : MultiCoreOrchestrator)

/-- The outcome of the engine a process ran. -/
def engineOutcome (run : WorkerRun) (args : ProcessArgs) :
    Except PyException WorkerTelemetryResult :=
  (execute run.adapter args.shardSpec run.env args.targetUri).outcome

/-- Processes that run to the end with an error-free result and at least one operation
measure the latencies of their own writes. -/
theorem measuredFleet_of_finished {adapterCls : AdapterClass} (runs : ℕ → WorkerRun)
    {results : ℕ → WorkerTelemetryResult}
    (hruns : ∀ i < orchestrator.coreIds.length,
      env.process i (orchestrator.processArgs blueprint adapterCls i) =
        finishedProcess (runs i) (orchestrator.processArgs blueprint adapterCls i))
    (hresults : ∀ i < orchestrator.coreIds.length,
      engineOutcome (runs i) (orchestrator.processArgs blueprint adapterCls i) = .ok (results i))
    (hclean : ∀ i < orchestrator.coreIds.length, (results i).errorMessage = none)
    (hops : ∀ i < orchestrator.coreIds.length, 0 < (results i).totalOps) :
    MeasuredFleet blueprint env orchestrator adapterCls results
      fun i => measuredLatencies (runs i).env (results i).totalOps where
  put := by
    intro i hi
    have hresult := hresults i hi
    rw [engineOutcome] at hresult
    rw [hruns i hi]
    simp only [finishedProcess, runWorkerProcess, hresult]
  clean := hclean
  nonempty := by
    intro i hi hnil
    have hlength := congrArg List.length hnil
    have hpos := hops i hi
    simp only [measuredLatencies, List.length_map, List.length_range, List.length_nil] at hlength
    omega
  p99 := fun i hi => execute_p99Ms _ _ _ (hresults i hi)

/-- A measured fleet puts its results in order. -/
theorem measuredFleet_put {adapterCls : AdapterClass} {results : ℕ → WorkerTelemetryResult}
    {histories : ℕ → List ℕ}
    (h : MeasuredFleet blueprint env orchestrator adapterCls results histories) :
    (orchestrator.fleet blueprint env adapterCls).flatMap WorkerProcess.put =
      (List.range orchestrator.coreIds.length).map results := by
  rw [MultiCoreOrchestrator.fleet, List.flatMap_map, ← List.flatMap_pure_eq_map]
  exact List.flatMap_congr fun i hi => h.put i (List.mem_range.mp hi)

/-- A summary's tail latency is the largest of its results'. -/
theorem le_maxP99Ms_iff (totalCores : ℕ) {workerResults : List WorkerTelemetryResult}
    (h : workerResults ≠ []) (bound : ℚ) :
    bound ≤ (clusterSummary blueprint env totalCores workerResults).maxP99Ms ↔
      ∃ result ∈ workerResults, bound ≤ result.p99Ms := by
  have hmap : workerResults.map WorkerTelemetryResult.p99Ms ≠ [] := by
    simpa using h
  simp only [clusterSummary, if_neg h]
  rw [le_listMax_iff hmap]
  simp only [List.mem_map, exists_exists_and_eq_and]

/-- A nonempty measured fleet whose results fit the queue's pipe returns a summary, whose tail
latency is the largest of its workers'. -/
theorem measuredFleet_summary {adapterCls : AdapterClass}
    (hspawns : orchestrator.Spawns blueprint env adapterCls) (hqueue : env.QueueVisible)
    (hcores : orchestrator.coreIds ≠ []) {results : ℕ → WorkerTelemetryResult}
    {histories : ℕ → List ℕ}
    (hmeasured : MeasuredFleet blueprint env orchestrator adapterCls results histories)
    (hholds : env.QueueHolds orchestrator.coreIds.length
      ((List.range orchestrator.coreIds.length).map results)) :
    ∃ summary, (orchestrator.start blueprint env).outcome = .ok summary ∧
      ∀ bound, bound ≤ summary.maxP99Ms ↔
        ∃ i < orchestrator.coreIds.length, bound ≤ (results i).p99Ms := by
  have hperm : (env.drain ((orchestrator.fleet blueprint env adapterCls).flatMap
      WorkerProcess.put)).Perm ((List.range orchestrator.coreIds.length).map results) := by
    rw [← measuredFleet_put blueprint env orchestrator hmeasured]
    exact hqueue _
  have hclean : ¬ ∃ result ∈ env.drain ((orchestrator.fleet blueprint env adapterCls).flatMap
      WorkerProcess.put), result.errorMessage.isSome := by
    intro h
    obtain ⟨result, hresult, hsome⟩ := h
    obtain ⟨i, hi, rfl⟩ := List.mem_map.mp (hperm.mem_iff.mp hresult)
    rw [hmeasured.clean i (List.mem_range.mp hi)] at hsome
    cases hsome
  have hdrained : env.drain ((orchestrator.fleet blueprint env adapterCls).flatMap
      WorkerProcess.put) ≠ [] := by
    apply List.ne_nil_of_length_pos
    rw [hperm.length_eq, List.length_map, List.length_range]
    exact List.length_pos_of_ne_nil hcores
  rw [← measuredFleet_put blueprint env orchestrator hmeasured] at hholds
  rw [orchestrator.start_outcome_of_holds blueprint env hspawns hholds,
    reportTelemetry_ok blueprint env _ hclean]
  refine ⟨_, rfl, ?_⟩
  intro bound
  rw [le_maxP99Ms_iff blueprint env _ hdrained]
  simp only [hperm.mem_iff, List.mem_map, List.mem_range, exists_exists_and_eq_and]

/-- A nonempty measured fleet returns a summary exactly when its results fit the queue's pipe,
and the summary reports at least the percentile of all latencies together exactly when the
tails add up. -/
theorem start_maxP99_iff (adapterCls : AdapterClass)
    (hspawns : orchestrator.Spawns blueprint env adapterCls) (hqueue : env.QueueVisible)
    (hcores : orchestrator.coreIds ≠ []) (results : ℕ → WorkerTelemetryResult)
    (histories : ℕ → List ℕ)
    (hmeasured : MeasuredFleet blueprint env orchestrator adapterCls results histories) :
    ((∃ summary, (orchestrator.start blueprint env).outcome = .ok summary) ↔
        env.QueueHolds orchestrator.coreIds.length
          ((List.range orchestrator.coreIds.length).map results)) ∧
      ∀ summary, (orchestrator.start blueprint env).outcome = .ok summary →
        ((MetricCollector.init.recordAll
            ((List.range orchestrator.coreIds.length).map histories).flatten).p99LatencyMs ≤
              summary.maxP99Ms ↔
          TailsAddUp ((List.range orchestrator.coreIds.length).map histories)) := by
  have hops : ∀ latencies ∈ (List.range orchestrator.coreIds.length).map histories,
      latencies ≠ [] := by
    intro latencies hmem
    obtain ⟨i, hi, rfl⟩ := List.mem_map.mp hmem
    exact hmeasured.nonempty i (List.mem_range.mp hi)
  have hhistories : (List.range orchestrator.coreIds.length).map histories ≠ [] := by
    simpa using hcores
  apply CallOutcome.returns_iff
  · intro hholds
    obtain ⟨summary, hsummary, hmax⟩ :=
      measuredFleet_summary blueprint env orchestrator hspawns hqueue hcores hmeasured hholds
    refine ⟨summary, hsummary, ?_⟩
    rw [← exists_p99_ge_iff hhistories hops, hmax]
    simp only [List.mem_map, List.mem_range, exists_exists_and_eq_and]
    apply exists_congr
    intro i
    apply and_congr_right
    intro hi
    rw [hmeasured.p99 i hi]
  · intro hfull summary hsummary
    rw [← measuredFleet_put blueprint env orchestrator hmeasured] at hfull
    rw [orchestrator.start_outcome_of_not_holds blueprint env hspawns hfull] at hsummary
    cases hsummary

end Fleet

section Disk

variable {ω : Type} {F : Type} [DecidableEq F] {system : PosixSystem ω}
  {semantics : FileSemantics F system.toOperatingSystem} {os : ω}
  {orchestrator : MultiCoreOrchestrator} {blueprint : WorkloadBlueprint} {env : FleetEnvironment}
  {workerEnv : ℕ → WorkerEnvironment} {paths : Set String}

/-- The latencies of the writes that the worker of a position counts. -/
def workerHistory (system : PosixSystem ω) (os : ω) (orchestrator : MultiCoreOrchestrator)
    (blueprint : WorkloadBlueprint) (workerEnv : ℕ → WorkerEnvironment) (i : ℕ) : List ℕ :=
  measuredLatencies (workerEnv i)
    (masterResult system os orchestrator blueprint workerEnv i).totalOps

/-- The workers of a run on a reliable file system report the percentiles of their own
writes. -/
theorem DiskRun.measured (h : DiskRun semantics os orchestrator blueprint env workerEnv paths) :
    MeasuredFleet blueprint env orchestrator .posixDirectIo
      (masterResult system os orchestrator blueprint workerEnv)
      (workerHistory system os orchestrator blueprint workerEnv) := by
  apply measuredFleet_of_finished blueprint env orchestrator
    fun i => posixRun system os (workerEnv i) blueprint.targetUri
  · intro i _
    exact h.process i _
  · intro i hi
    exact (h.completes hi).outcome
  · intro i hi
    exact (h.completes hi).clean
  · intro i hi
    rw [(h.completes hi).totalOps]
    exact Nat.mul_pos (Nat.zero_lt_succ _) (by decide)

end Disk

/-- The histories of two workers that write two batches each to an empty disk. -/
def diskHistories : ℕ → List ℕ :=
  workerHistory (diskSystem fun _ length => length) Disk.empty twoCores diskBlueprint diskWorkerEnv

/-- Two workers with the latencies of their own writes. -/
theorem start_maxP99_iff_disk :
    ((∃ summary, (twoCores.start diskBlueprint diskFleet).outcome = .ok summary) ↔
        diskFleet.QueueHolds 2 ((List.range 2).map (masterResult
          (diskSystem fun _ length => length) Disk.empty twoCores diskBlueprint diskWorkerEnv))) ∧
      ∀ summary, (twoCores.start diskBlueprint diskFleet).outcome = .ok summary →
        ((MetricCollector.init.recordAll
            ((List.range 2).map diskHistories).flatten).p99LatencyMs ≤ summary.maxP99Ms ↔
          TailsAddUp ((List.range 2).map diskHistories)) :=
  start_maxP99_iff diskBlueprint diskFleet twoCores .posixDirectIo diskFleet_run.spawns
    diskFleet_run.queueVisible (by decide) _ diskHistories diskFleet_run.measured

/-- A fleet whose workers complete with the percentiles of the given histories. -/
def historyFleet (histories : ℕ → List ℕ) : FleetEnvironment :=
  FleetEnvironment.ofOutcomes fun i => .completed
    { oneBlockResult i with p99Ms := (MetricCollector.init.recordAll (histories i)).p99LatencyMs }
    rfl

/-- The summary of two workers with one operation each reports a nanosecond where both took a
microsecond. -/
theorem start_maxP99_underReported :
    ∃ summary, (twoCores.start fileBlueprint (historyFleet fun _ => [1000])).outcome = .ok summary ∧
      ¬ (MetricCollector.init.recordAll
          ((List.range 2).map fun _ => [1000]).flatten).p99LatencyMs ≤ summary.maxP99Ms ∧
      summary.maxP99Ms = 1 / 1000000 :=
  ⟨_, rfl, by decide +kernel, by decide +kernel⟩

end Steve.Orchestrator
