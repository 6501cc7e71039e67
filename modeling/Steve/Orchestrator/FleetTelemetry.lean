import Mathlib.Algebra.BigOperators.Group.List.Basic
import Mathlib.Data.List.Perm.Basic
import Steve.Orchestrator.Master

/-!
# When the collected telemetry is all or error

The master sees a fleet through two channels: exit codes, which it only logs, and results,
in which it looks for error messages. A worker that dies without a result is therefore
missed unless another worker reports an error. And it looks only once every process has
exited, which none does before its result is in the queue's pipe.
-/

namespace Steve.Orchestrator

open Steve.Library
open Steve.Adapters
open Steve.Payload
open Steve.Validation

/-- How a spawned worker ends. -/
inductive WorkerOutcome
  /-- exits 0 after putting one result without an error -/
  | completed (result : WorkerTelemetryResult) (clean : result.errorMessage = none)
  /-- puts one result with an error message, whatever its exit code -/
  | reportedError (exitCode : ℤ) (result : WorkerTelemetryResult)
      (failed : result.errorMessage ≠ none)
  /-- dies with a non-zero exit code, having put nothing -/
  | died (exitCode : ℤ) (crashed : exitCode ≠ 0)

namespace WorkerOutcome

/-- The exit code of an outcome. -/
def exitCode : WorkerOutcome → ℤ
  | completed _ _ => 0
  | reportedError exitCode _ _ => exitCode
  | died exitCode _ => exitCode

/-- What an outcome leaves on the queue. -/
def put : WorkerOutcome → List WorkerTelemetryResult
  | completed result _ => [result]
  | reportedError _ result _ => [result]
  | died _ _ => []

/-- The worker exits 0 and delivers one error-free result. -/
def Completed : WorkerOutcome → Prop
  | completed _ _ => True
  | _ => False

/-- The worker delivers a result with an error message. -/
def ReportedError : WorkerOutcome → Prop
  | reportedError _ _ _ => True
  | _ => False

/-- A process ends in an outcome. -/
structure Of (outcome : WorkerOutcome) (process : WorkerProcess) : Prop where
  exitCode : process.exitCode = outcome.exitCode
  put : process.put = outcome.put

/-- A process that runs its entry point to the end completes or reports an error. -/
theorem exists_of_finishedProcess (run : WorkerRun) (args : ProcessArgs) :
    ∃ outcome : WorkerOutcome, outcome.Of (finishedProcess run args) ∧
      (outcome.Completed ∨ outcome.ReportedError) := by
  obtain ⟨result, hput⟩ : ∃ result, (finishedProcess run args).put = [result] := ⟨_, rfl⟩
  by_cases hclean : result.errorMessage = none
  · exact ⟨.completed result hclean, ⟨rfl, hput⟩, Or.inl trivial⟩
  · exact ⟨.reportedError 0 result hclean, ⟨rfl, hput⟩, Or.inr trivial⟩

/-- A worker that completed reported no error. -/
theorem not_reportedError_of_completed {outcome : WorkerOutcome} (h : outcome.Completed) :
    ¬ outcome.ReportedError := by
  cases outcome with
  | completed result clean => exact id
  | reportedError exitCode result failed => exact h.elim
  | died exitCode crashed => exact h.elim

/-- A worker that completed exits 0. -/
theorem exitCode_of_completed {outcome : WorkerOutcome} (h : outcome.Completed) :
    outcome.exitCode = 0 := by
  cases outcome with
  | completed result clean => rfl
  | reportedError exitCode result failed => exact h.elim
  | died exitCode crashed => exact h.elim

/-- A worker that completed puts one result. -/
theorem put_length_of_completed {outcome : WorkerOutcome} (h : outcome.Completed) :
    outcome.put.length = 1 := by
  cases outcome with
  | completed result clean => rfl
  | reportedError exitCode result failed => exact h.elim
  | died exitCode crashed => exact h.elim

/-- A worker puts a failed result exactly when it reports an error. -/
theorem exists_failed_put_iff (outcome : WorkerOutcome) :
    (∃ result ∈ outcome.put, result.errorMessage.isSome) ↔ outcome.ReportedError := by
  cases outcome with
  | completed result clean => simp [put, ReportedError, clean]
  | reportedError exitCode result failed =>
    simpa [put, ReportedError] using Option.isSome_iff_ne_none.mpr failed
  | died exitCode crashed => simp [put, ReportedError]

end WorkerOutcome

section Report

variable (blueprint : WorkloadBlueprint) (env : FleetEnvironment) (workers : ℕ)
  (outcomes : ℕ → WorkerOutcome) (seen : ℕ → Bool)

/-- The results a fleet delivers. -/
def deliveredResults : List WorkerTelemetryResult :=
  (List.range workers).flatMap fun i => (outcomes i).put

/-- Those of the workers whose results the drain loop sees. -/
def seenResults : List WorkerTelemetryResult :=
  (List.range workers).flatMap fun i => if seen i then (outcomes i).put else []

/-- The drain loop takes off the queue what it sees there, and it sees all that a worker that
exited 0 has put. -/
structure Drains : Prop where
  exited : ∀ i < workers, (outcomes i).exitCode = 0 → seen i = true
  drained : (env.drain (deliveredResults workers outcomes)).Perm
    (seenResults workers outcomes seen)

/-- What a summary of a fleet must say. -/
structure CompleteSummary (summary : ClusterTelemetrySummary) : Prop where
  completed : ∀ i < workers, (outcomes i).Completed
  results : summary.workers.Perm (deliveredResults workers outcomes)
  oneResultEach : summary.workers.length = summary.totalCores
  totalCores : summary.totalCores = workers
  totalOps : summary.totalOps =
    ((deliveredResults workers outcomes).map WorkerTelemetryResult.totalOps).sum
  totalBytes : summary.totalBytes =
    ((deliveredResults workers outcomes).map WorkerTelemetryResult.totalBytes).sum

/-- A run is all or error: a summary covers every worker, all of them completed, and
otherwise a worker crash is raised. A run that never ends is neither. -/
def AllOrError : CallOutcome PyException ClusterTelemetrySummary → Prop
  | .ok summary => CompleteSummary workers outcomes summary
  | .error e => e.cls = .steve .workerCrashError ∧ ¬ ∀ i < workers, (outcomes i).Completed
  | .blocked => False

/-- Some result seen carries an error exactly when some worker seen reported one. -/
theorem exists_failedResult_iff :
    (∃ result ∈ seenResults workers outcomes seen, result.errorMessage.isSome) ↔
      ∃ i < workers, (outcomes i).ReportedError ∧ seen i = true := by
  simp only [seenResults, List.mem_flatMap, List.mem_range,
    ← WorkerOutcome.exists_failed_put_iff]
  constructor
  · intro h
    obtain ⟨result, ⟨i, hi, hput⟩, hsome⟩ := h
    cases hseen : seen i with
    | false => simp [hseen] at hput
    | true =>
      rw [hseen, if_pos rfl] at hput
      exact ⟨i, hi, ⟨result, hput, hsome⟩, hseen⟩
  · intro h
    obtain ⟨i, hi, ⟨result, hput, hsome⟩, hseen⟩ := h
    exact ⟨result, ⟨i, hi, by rwa [if_pos hseen]⟩, hsome⟩

/-- A fleet whose workers all completed delivers one result a worker. -/
theorem deliveredResults_length (h : ∀ i < workers, (outcomes i).Completed) :
    (deliveredResults workers outcomes).length = workers := by
  have hone : ∀ i ∈ List.range workers, (outcomes i).put.length = 1 := by
    intro i hi
    exact WorkerOutcome.put_length_of_completed (h i (List.mem_range.mp hi))
  rw [deliveredResults, List.length_flatMap, List.map_congr_left hone]
  simp

/-- All its results are seen. -/
theorem seenResults_eq (h : ∀ i < workers, seen i = true) :
    seenResults workers outcomes seen = deliveredResults workers outcomes := by
  rw [seenResults, deliveredResults]
  apply List.flatMap_congr
  intro i hi
  rw [if_pos (h i (List.mem_range.mp hi))]

/-- A report on results with an error raises. -/
theorem reportTelemetry_error {workerResults : List WorkerTelemetryResult}
    (h : ∃ result ∈ workerResults, result.errorMessage.isSome) :
    ∃ e, reportTelemetry blueprint env workers workerResults = .error e ∧
      e.cls = .steve .workerCrashError := by
  obtain ⟨result, hmem, hsome⟩ := h
  have hfailed : workerResults.filter (fun worker => worker.errorMessage.isSome) ≠ [] :=
    List.ne_nil_of_mem (List.mem_filter.mpr ⟨hmem, hsome⟩)
  exact ⟨_, if_pos hfailed, rfl⟩

/-- A report on results without an error is their summary. -/
theorem reportTelemetry_ok {workerResults : List WorkerTelemetryResult}
    (h : ¬ ∃ result ∈ workerResults, result.errorMessage.isSome) :
    reportTelemetry blueprint env workers workerResults =
      .ok (clusterSummary blueprint env workers workerResults) := by
  have hclean : workerResults.filter (fun worker => worker.errorMessage.isSome) = [] := by
    rw [List.filter_eq_nil_iff]
    intro result hmem hsome
    exact h ⟨result, hmem, hsome⟩
  exact if_neg (not_not.mpr hclean)

/-- The report on what the drain loop sees is all or error exactly when a worker that does not
complete is accompanied by an error seen. -/
theorem reportTelemetry_allOrError_iff (hdrains : Drains env workers outcomes seen) :
    AllOrError workers outcomes (.ofExcept (reportTelemetry blueprint env workers
        (env.drain (deliveredResults workers outcomes)))) ↔
      ((∃ i < workers, ¬ (outcomes i).Completed) →
        ∃ i < workers, (outcomes i).ReportedError ∧ seen i = true) := by
  have hfailed : (∃ result ∈ env.drain (deliveredResults workers outcomes),
      result.errorMessage.isSome) ↔
        ∃ i < workers, (outcomes i).ReportedError ∧ seen i = true := by
    rw [← exists_failedResult_iff]
    simp only [hdrains.drained.mem_iff]
  by_cases herror : ∃ i < workers, (outcomes i).ReportedError ∧ seen i = true
  · obtain ⟨e, hreport, hcls⟩ := reportTelemetry_error blueprint env workers (hfailed.mpr herror)
    rw [hreport]
    refine iff_of_true ⟨hcls, ?_⟩ (fun _ => herror)
    obtain ⟨i, hi, hreported, -⟩ := herror
    intro hall
    exact WorkerOutcome.not_reportedError_of_completed (hall i hi) hreported
  · rw [reportTelemetry_ok blueprint env workers (mt hfailed.mp herror)]
    constructor
    · intro hsummary hlost
      obtain ⟨i, hi, hincomplete⟩ := hlost
      exact absurd (hsummary.completed i hi) hincomplete
    · intro himp
      have hcompleted : ∀ i < workers, (outcomes i).Completed := by
        intro i hi
        by_contra hincomplete
        exact herror (himp ⟨i, hi, hincomplete⟩)
      have hperm := hdrains.drained
      rw [seenResults_eq workers outcomes seen fun i hi =>
        hdrains.exited i hi (WorkerOutcome.exitCode_of_completed (hcompleted i hi))] at hperm
      have hlength : (env.drain (deliveredResults workers outcomes)).length = workers := by
        rw [hperm.length_eq, deliveredResults_length workers outcomes hcompleted]
      exact ⟨hcompleted, hperm, hlength, rfl, (hperm.map _).sum_eq, (hperm.map _).sum_eq⟩

end Report

section Fleet

variable (blueprint : WorkloadBlueprint) (env : FleetEnvironment)
  (orchestrator : MultiCoreOrchestrator)

/-- The processes put on the queue what their outcomes deliver. -/
theorem fleet_put (adapterCls : AdapterClass) {outcomes : ℕ → WorkerOutcome}
    (houtcomes : ∀ i < orchestrator.coreIds.length,
      (outcomes i).Of (env.process i (orchestrator.processArgs blueprint adapterCls i))) :
    (orchestrator.fleet blueprint env adapterCls).flatMap WorkerProcess.put =
      deliveredResults orchestrator.coreIds.length outcomes := by
  rw [MultiCoreOrchestrator.fleet, List.flatMap_map, deliveredResults]
  exact List.flatMap_congr fun i hi => (houtcomes i (List.mem_range.mp hi)).put

/-- Telemetry collection is all or error exactly when the queue's pipe takes what the workers
put, so that the run ends, and a worker that does not complete is accompanied by one whose
reported error is seen. -/
theorem start_allOrError_iff (adapterCls : AdapterClass)
    (hspawns : orchestrator.Spawns blueprint env adapterCls)
    (outcomes : ℕ → WorkerOutcome)
    (houtcomes : ∀ i < orchestrator.coreIds.length,
      (outcomes i).Of (env.process i (orchestrator.processArgs blueprint adapterCls i)))
    (seen : ℕ → Bool) (hdrains : Drains env orchestrator.coreIds.length outcomes seen) :
    AllOrError orchestrator.coreIds.length outcomes (orchestrator.start blueprint env).outcome ↔
      env.QueueHolds orchestrator.coreIds.length
          (deliveredResults orchestrator.coreIds.length outcomes) ∧
        ((∃ i < orchestrator.coreIds.length, ¬ (outcomes i).Completed) →
          ∃ i < orchestrator.coreIds.length, (outcomes i).ReportedError ∧ seen i = true) := by
  have hput := fleet_put blueprint env orchestrator adapterCls houtcomes
  by_cases hholds : env.QueueHolds orchestrator.coreIds.length
      (deliveredResults orchestrator.coreIds.length outcomes)
  · rw [orchestrator.start_outcome_of_holds blueprint env hspawns (hput ▸ hholds), hput,
      reportTelemetry_allOrError_iff blueprint env _ outcomes seen hdrains]
    exact (and_iff_right hholds).symm
  · rw [orchestrator.start_outcome_of_not_holds blueprint env hspawns (hput ▸ hholds)]
    exact iff_of_false id fun h => hholds h.1

/-- A fleet whose processes all run their entry point to the end is all or error, provided
the queue's pipe takes their results. -/
theorem finishedFleet_allOrError (adapterCls : AdapterClass)
    (hspawns : orchestrator.Spawns blueprint env adapterCls) (hqueue : env.QueueVisible)
    (hholds : env.QueueHolds orchestrator.coreIds.length
      ((orchestrator.fleet blueprint env adapterCls).flatMap WorkerProcess.put))
    (hfinished : ∀ i < orchestrator.coreIds.length, ∃ run : WorkerRun,
      env.process i (orchestrator.processArgs blueprint adapterCls i) =
        finishedProcess run (orchestrator.processArgs blueprint adapterCls i)) :
    ∃ outcomes : ℕ → WorkerOutcome,
      (∀ i < orchestrator.coreIds.length,
        (outcomes i).Of (env.process i (orchestrator.processArgs blueprint adapterCls i))) ∧
      AllOrError orchestrator.coreIds.length outcomes
        (orchestrator.start blueprint env).outcome := by
  have houtcome : ∀ i, ∃ outcome : WorkerOutcome, i < orchestrator.coreIds.length →
      outcome.Of (env.process i (orchestrator.processArgs blueprint adapterCls i)) ∧
        (outcome.Completed ∨ outcome.ReportedError) := by
    intro i
    by_cases hi : i < orchestrator.coreIds.length
    · obtain ⟨run, hrun⟩ := hfinished i hi
      obtain ⟨outcome, hof, hends⟩ := WorkerOutcome.exists_of_finishedProcess run
        (orchestrator.processArgs blueprint adapterCls i)
      exact ⟨outcome, fun _ => ⟨hrun ▸ hof, hends⟩⟩
    · exact ⟨.died 1 (by decide), fun h => absurd h hi⟩
  choose outcomes houtcomes using houtcome
  have hput := fleet_put blueprint env orchestrator adapterCls fun i hi => (houtcomes i hi).1
  have hdrains : Drains env orchestrator.coreIds.length outcomes fun _ => true :=
    ⟨fun _ _ _ => rfl, by
      rw [seenResults_eq _ _ _ fun _ _ => rfl]
      exact hqueue _⟩
  refine ⟨outcomes, fun i hi => (houtcomes i hi).1, ?_⟩
  rw [orchestrator.start_outcome_of_holds blueprint env hspawns hholds, hput]
  apply (reportTelemetry_allOrError_iff blueprint env _ outcomes _ hdrains).mpr
  intro hlost
  obtain ⟨i, hi, hincomplete⟩ := hlost
  exact ⟨i, hi, (houtcomes i hi).2.resolve_left hincomplete, rfl⟩

end Fleet

/-- A fleet whose workers end in the given outcomes, seen through a queue in spawn order. -/
def FleetEnvironment.ofOutcomes (outcomes : ℕ → WorkerOutcome) : FleetEnvironment where
  isWindows := false
  launch := fun _ => none
  process := fun i args =>
    { exitCode := (outcomes i).exitCode
      put := (outcomes i).put
      pinned := [args.shardSpec.coreId]
      attempted := [] }
  exits := fun _ _ => true
  drain := id
  elapsedSec := 1
  activity := []

/-- A result of a worker that wrote one block. -/
def oneBlockResult (coreId : ℕ) : WorkerTelemetryResult where
  coreId := coreId
  nodeId := "node-0"
  totalOps := 1
  totalBytes := 4096
  durationSec := 1
  p50Ms := 0
  p90Ms := 0
  p99Ms := 0
  p999Ms := 0
  throughputGbps := 4096 * 8 / 1000000000
  errorMessage := none

/-- Every worker writes one block. -/
def allWrite (i : ℕ) : WorkerOutcome := .completed (oneBlockResult i) rfl

/-- The second worker is killed by a signal; the others write one block. -/
def secondKilled (i : ℕ) : WorkerOutcome := if i = 1 then .died (-9) (by decide) else allWrite i

/-- A file target resolves to the POSIX adapter. -/
theorem fileBlueprint_resolves :
    AdapterFactory.getAdapterClass false fileBlueprint.targetUri = .ok .posixDirectIo := by
  decide

/-- The controller of two cores. -/
def twoCores : MultiCoreOrchestrator := ⟨[0, 1], "node-0"⟩

/-- The two-core controller starts both workers of a file target. -/
theorem twoCores_spawns (outcomes : ℕ → WorkerOutcome) :
    twoCores.Spawns fileBlueprint (FleetEnvironment.ofOutcomes outcomes) .posixDirectIo where
  resolved := fileBlueprint_resolves
  launched := fun _ _ => rfl

/-- A queue of unlimited room holds whatever is put. -/
theorem ofOutcomes_holds (outcomes : ℕ → WorkerOutcome) (workers : ℕ)
    (put : List WorkerTelemetryResult) :
    (FleetEnvironment.ofOutcomes outcomes).QueueHolds workers put :=
  fun _ _ => rfl

/-- Two workers that both complete. -/
theorem start_allOrError_iff_both_completed :
    AllOrError 2 allWrite
        (twoCores.start fileBlueprint (FleetEnvironment.ofOutcomes allWrite)).outcome ↔
      (FleetEnvironment.ofOutcomes allWrite).QueueHolds 2 (deliveredResults 2 allWrite) ∧
        ((∃ i < 2, ¬ (allWrite i).Completed) →
          ∃ i < 2, (allWrite i).ReportedError ∧ true = true) :=
  start_allOrError_iff fileBlueprint (FleetEnvironment.ofOutcomes allWrite) twoCores
    .posixDirectIo (twoCores_spawns allWrite) allWrite (fun _ _ => ⟨rfl, rfl⟩) (fun _ => true)
    ⟨fun _ _ _ => rfl, List.Perm.refl _⟩

/-- The surviving worker's telemetry is reported as a whole run. -/
theorem start_summary_despite_killed_worker :
    ¬ AllOrError 2 secondKilled
      (twoCores.start fileBlueprint (FleetEnvironment.ofOutcomes secondKilled)).outcome := by
  rw [MultiCoreOrchestrator.start_outcome_of_holds _ _ _ (twoCores_spawns secondKilled)
    (ofOutcomes_holds _ _ _)]
  intro h
  exact h.completed 1 (by decide)

end Steve.Orchestrator
