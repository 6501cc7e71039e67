import Mathlib.Data.List.TakeWhile
import Steve.Adapters.Factory
import Steve.Library.JoinLoop
import Steve.Orchestrator.WorkerWrites
import Steve.Payload.Blueprint
import Steve.Validation.Evaluator

/-!
# The master controller

One run of the master: shard the node, resolve the adapter class, start one process a
shard, join them all, drain the telemetry queue, and report. A process is known to the
master by its exit code and by what it puts on the queue; the join loop only logs exit
codes. Nobody reads the queue before the last join, so a process whose results do not fit
the queue's pipe never exits, and the run never ends. The record of a run also keeps what
the processes did, for the statements below.
-/

namespace Steve.Orchestrator

open Steve.Library
open Steve.Adapters
open Steve.Payload
open Steve.Validation

/-- What the orchestrator asks its host. -/
structure Host where
  hostname : String
  /-- the affinity mask, where the platform has one to give -/
  affinity : Option (List ℕ)
  cpuCount : Option ℕ

/-- The core ids available on a host. -/
def availableCores (host : Host) : List ℕ :=
  match host.affinity with
  | some cores => cores
  | none => List.range (match host.cpuCount with
    | none | some 0 => 1
    | some (count + 1) => count + 1)

/-- What the controller keeps between runs. -/
structure MultiCoreOrchestrator where
  coreIds : List ℕ
  nodeId : String
  deriving DecidableEq, Repr

/-- `core_ids or available_cores()`: an empty list counts as none given. -/
def MultiCoreOrchestrator.init (host : Host) (coreIds : Option (List ℕ)) :
    MultiCoreOrchestrator where
  coreIds := match coreIds with
    | none | some [] => availableCores host
    | some (coreId :: rest) => coreId :: rest
  nodeId := host.hostname

/-- The arguments a worker process is started with. -/
structure ProcessArgs where
  shardSpec : WorkerShardSpec
  targetUri : String
  adapterCls : AdapterClass
  durationSec : ℕ
  deriving DecidableEq, Repr

/-- What a worker process has done when it is joined. -/
structure WorkerProcess where
  exitCode : ℤ
  put : List WorkerTelemetryResult
  pinned : List ℕ
  attempted : List WriteCall

/-- A process that ran its entry point to the end. -/
def finishedProcess (run : WorkerRun) (args : ProcessArgs) : WorkerProcess :=
  let process := runWorkerProcess run.adapter args.shardSpec run.env args.targetUri
  { exitCode := 0
    put := process.queued
    pinned := process.pinned
    attempted := process.attempted }

/-- What the surroundings of one run of the master decide. -/
structure FleetEnvironment where
  isWindows : Bool
  /-- the failure to start the process of a position -/
  launch : ℕ → Option PyException
  process : ℕ → ProcessArgs → WorkerProcess
  /-- whether the process of a position exits although nobody reads the queue, on which the
  given results were put -/
  exits : List WorkerTelemetryResult → ℕ → Bool
  /-- what the drain loop takes off a queue on which the given results were put -/
  drain : List WorkerTelemetryResult → List WorkerTelemetryResult
  elapsedSec : ℚ
  /-- the probe's counter updates between its two samples -/
  activity : List ProbeActivity

/-- The growth of the probe's byte count between its two samples. -/
def FleetEnvironment.probeGrowth (env : FleetEnvironment) : ℕ :=
  (env.activity.foldl EBPFProbe.recordActivity EBPFProbe.init).sampleBytesTransferred -
    EBPFProbe.init.sampleBytesTransferred

/-- The queue's pipe takes the given results unread, so that every process exits. -/
def FleetEnvironment.QueueHolds (env : FleetEnvironment) (workers : ℕ)
    (put : List WorkerTelemetryResult) : Prop :=
  ∀ i < workers, env.exits put i = true

/-- Everything put on the queue is drained, once, in some order. -/
def FleetEnvironment.QueueVisible (env : FleetEnvironment) : Prop :=
  ∀ put, (env.drain put).Perm put

/-- One run of the master. -/
structure StartRun where
  spawned : List WorkerProcess
  /-- the exit codes logged by the join loop -/
  crashLog : List ℤ
  collected : List WorkerTelemetryResult
  outcome : CallOutcome PyException ClusterTelemetrySummary

/-- `max(values)` of a nonempty list. -/
def listMax : List ℚ → ℚ
  | [] => 0
  | first :: rest => rest.foldl max first

/-- The exception for a fleet with failed workers. -/
def workerFailure (runId : String) (failedWorkers : List WorkerTelemetryResult) : PyException where
  cls := .steve .workerCrashError
  message :=
    let details := String.intercalate "; " (failedWorkers.map fun worker =>
      let coreId := worker.coreId
      let message := worker.errorMessage.getD "None"
      s!"Core {coreId}: {message}")
    s!"Worker failure detected during run '{runId}': {details}"

section Start

variable (blueprint : WorkloadBlueprint) (env : FleetEnvironment)

/-- The spawn loop over the remaining positions, with the processes started so far. -/
def spawnLoop (adapterCls : AdapterClass) (localShards : List WorkerShardSpec) :
    List ℕ → List WorkerProcess → Option PyException × List WorkerProcess
  | [], processes => (none, processes)
  | i :: rest, processes =>
    match localShards[i]? with
    | none => (none, processes)
    | some shardSpec =>
      match env.launch i with
      | some e => (some e, processes)
      | none =>
        let args := ProcessArgs.mk shardSpec blueprint.targetUri adapterCls
          blueprint.durationSeconds
        spawnLoop adapterCls localShards rest (processes ++ [env.process i args])

/-- The join loop: the exit codes it logs as crashes, and whether it ends. -/
def joinLoop (exits : ℕ → Bool) (processes : List WorkerProcess) : List ℤ × Bool :=
  let (joined, done) := joinEach exits 0 processes
  ((joined.map WorkerProcess.exitCode).filter (· ≠ 0), done)

/-- The summary of a fleet without failed workers. -/
def clusterSummary (totalCores : ℕ) (workerResults : List WorkerTelemetryResult) :
    ClusterTelemetrySummary :=
  let elapsedSec := max env.elapsedSec (1 / 1000000)
  let totalOps := (workerResults.map WorkerTelemetryResult.totalOps).sum
  let totalBytes := (workerResults.map WorkerTelemetryResult.totalBytes).sum
  let p99Latencies :=
    if workerResults = [] then [0] else workerResults.map WorkerTelemetryResult.p99Ms
  let probeDelta := max env.probeGrowth totalBytes
  { runId := blueprint.runId
    targetUri := blueprint.targetUri
    totalCores := totalCores
    totalOps := totalOps
    totalBytes := totalBytes
    durationSec := elapsedSec
    aggregateThroughputGbps := (totalBytes * 8 : ℕ) / (elapsedSec * 1000000000)
    maxP99Ms := listMax p99Latencies
    avgP99Ms := p99Latencies.sum / p99Latencies.length
    workers := workerResults
    divergence := some (({} : TelemetryEvaluator).evaluate totalBytes probeDelta) }

/-- The report on the drained results: any failed worker fails the run. -/
def reportTelemetry (totalCores : ℕ) (workerResults : List WorkerTelemetryResult) :
    Except PyException ClusterTelemetrySummary :=
  let failedWorkers := workerResults.filter fun worker => worker.errorMessage.isSome
  if failedWorkers ≠ [] then .error (workerFailure blueprint.runId failedWorkers)
  else .ok (clusterSummary blueprint env totalCores workerResults)

/-- The rest of `start` once every process is started: join them, drain the queue, report. -/
def collectTelemetry (processes : List WorkerProcess) : StartRun :=
  let put := processes.flatMap WorkerProcess.put
  match joinLoop (env.exits put) processes with
  | (crashLog, false) => ⟨processes, crashLog, [], .blocked⟩
  | (crashLog, true) =>
    let workerResults := env.drain put
    { spawned := processes
      crashLog := crashLog
      collected := workerResults
      outcome := .ofExcept (reportTelemetry blueprint env processes.length workerResults) }

/-- The shards of the controller's own node. -/
def MultiCoreOrchestrator.localShards (orchestrator : MultiCoreOrchestrator) :
    List WorkerShardSpec :=
  let nodes := [(orchestrator.nodeId, orchestrator.coreIds.length)]
  let targetBps := blueprint.targetThroughputGbps * 1024 ^ 3
  let shards := generateClusterShards blueprint.globalSeed nodes targetBps
    blueprint.blockSizeBytes
  (shards.get? orchestrator.nodeId).getD []

/-- `MultiCoreOrchestrator.start`. -/
def MultiCoreOrchestrator.start (orchestrator : MultiCoreOrchestrator) : StartRun :=
  match AdapterFactory.getAdapterClass env.isWindows blueprint.targetUri with
  | .error e => ⟨[], [], [], .error e⟩
  | .ok adapterCls =>
    match spawnLoop blueprint env adapterCls (orchestrator.localShards blueprint)
      (List.range orchestrator.coreIds.length) [] with
    | (some e, processes) => ⟨processes, [], [], .error e⟩
    | (none, processes) => collectTelemetry blueprint env processes

/-- Whether or not the joins end, what was started stays started. -/
@[simp] theorem collectTelemetry_spawned (processes : List WorkerProcess) :
    (collectTelemetry blueprint env processes).spawned = processes := by
  simp only [collectTelemetry]
  split
  · rfl
  · rfl

/-- Processes that all exit are drained and reported on. -/
theorem collectTelemetry_of_holds {processes : List WorkerProcess}
    (h : env.QueueHolds processes.length (processes.flatMap WorkerProcess.put)) :
    (collectTelemetry blueprint env processes).outcome =
      .ofExcept (reportTelemetry blueprint env processes.length
        (env.drain (processes.flatMap WorkerProcess.put))) := by
  have hexits : ∀ j < processes.length,
      env.exits (processes.flatMap WorkerProcess.put) (0 + j) = true := by
    intro j hj
    rw [Nat.zero_add]
    exact h j hj
  simp only [collectTelemetry, joinLoop, joinEach_of_exits _ _ _ hexits]

/-- One that does not exit holds up its join. -/
theorem collectTelemetry_of_not_holds {processes : List WorkerProcess}
    (h : ¬ env.QueueHolds processes.length (processes.flatMap WorkerProcess.put)) :
    (collectTelemetry blueprint env processes).outcome = .blocked := by
  have hdone : (joinEach (env.exits (processes.flatMap WorkerProcess.put)) 0 processes).2 =
      false := by
    rw [Bool.eq_false_iff]
    intro hdone
    apply h
    intro i hi
    rw [← Nat.zero_add i]
    exact (joinEach_done_iff _ _ _).mp hdone i hi
  simp only [collectTelemetry, joinLoop, hdone]

/-- A returned summary is that of the results collected. -/
theorem collectTelemetry_ok {processes : List WorkerProcess} {summary : ClusterTelemetrySummary}
    (h : (collectTelemetry blueprint env processes).outcome = .ok summary) :
    summary =
      clusterSummary blueprint env processes.length
        (collectTelemetry blueprint env processes).collected := by
  simp only [collectTelemetry] at h ⊢
  split at h
  · cases h
  · simp only [reportTelemetry] at h ⊢
    split at h
    · cases h
    · exact (CallOutcome.ok.inj h).symm

namespace MultiCoreOrchestrator

variable (orchestrator : MultiCoreOrchestrator)

/-- The arguments of the process at a position of a fleet that is started completely. -/
def processArgs (adapterCls : AdapterClass) (i : ℕ) : ProcessArgs where
  shardSpec := shardSpec blueprint.globalSeed orchestrator.coreIds.length
    (perCoreThroughput (blueprint.targetThroughputGbps * 1024 ^ 3) orchestrator.coreIds.length)
    blueprint.blockSizeBytes orchestrator.nodeId i i
  targetUri := blueprint.targetUri
  adapterCls := adapterCls
  durationSec := blueprint.durationSeconds

/-- The node has one shard a core. -/
theorem localShards_eq : orchestrator.localShards blueprint =
    (List.range orchestrator.coreIds.length).map fun i =>
      shardSpec blueprint.globalSeed orchestrator.coreIds.length
        (perCoreThroughput (blueprint.targetThroughputGbps * 1024 ^ 3) orchestrator.coreIds.length)
        blueprint.blockSizeBytes orchestrator.nodeId i i := by
  simp only [localShards, generateClusterShards_single, Option.getD_some]

/-- Each position of the node has the shard of its process. -/
theorem localShards_getElem? (adapterCls : AdapterClass) {i : ℕ}
    (hi : i < orchestrator.coreIds.length) : (orchestrator.localShards blueprint)[i]? =
      some (orchestrator.processArgs blueprint adapterCls i).shardSpec := by
  rw [localShards_eq, List.getElem?_map, List.getElem?_range hi]
  rfl

/-- A run that resolves its adapter class and starts every process. -/
structure Spawns (adapterCls : AdapterClass) : Prop where
  resolved : AdapterFactory.getAdapterClass env.isWindows blueprint.targetUri = .ok adapterCls
  launched : ∀ i < orchestrator.coreIds.length, env.launch i = none

/-- The spawn loop starts the remaining processes up to the first failure, which it returns. -/
theorem spawnLoop_eq (adapterCls : AdapterClass) (positions : List ℕ)
    (hpositions : ∀ i ∈ positions, i < orchestrator.coreIds.length)
    (processes : List WorkerProcess) :
    spawnLoop blueprint env adapterCls (orchestrator.localShards blueprint) positions processes =
      (positions.findSome? env.launch,
        processes ++ (positions.takeWhile fun i => (env.launch i).isNone).map fun i =>
          env.process i (orchestrator.processArgs blueprint adapterCls i)) := by
  induction positions generalizing processes with
  | nil => simp [spawnLoop]
  | cons i rest ih =>
    have hi : i < orchestrator.coreIds.length := hpositions i List.mem_cons_self
    have hrest : ∀ j ∈ rest, j < orchestrator.coreIds.length := by
      intro j hj
      exact hpositions j (List.mem_cons_of_mem i hj)
    rw [spawnLoop, localShards_getElem? blueprint orchestrator adapterCls hi]
    cases hlaunch : env.launch i with
    | some e => simp [hlaunch]
    | none =>
      simp only
      rw [ih hrest, List.findSome?_cons, hlaunch, List.takeWhile_cons_of_pos (by simp [hlaunch]),
        List.map_cons, List.append_assoc, List.singleton_append]
      rfl

/-- The processes of a fleet that is started completely. -/
def fleet (adapterCls : AdapterClass) : List WorkerProcess :=
  (List.range orchestrator.coreIds.length).map fun i =>
    env.process i (orchestrator.processArgs blueprint adapterCls i)

/-- Whatever fails, the processes of a run are the first of a fleet. -/
theorem start_spawned : ∃ adapterCls,
    (orchestrator.start blueprint env).spawned <+: orchestrator.fleet blueprint env adapterCls := by
  cases hresolve : AdapterFactory.getAdapterClass env.isWindows blueprint.targetUri with
  | error e =>
    refine ⟨.posixDirectIo, ?_⟩
    simp only [start, hresolve, List.nil_prefix]
  | ok adapterCls =>
    have hspawned : (orchestrator.start blueprint env).spawned =
        ((List.range orchestrator.coreIds.length).takeWhile fun i => (env.launch i).isNone).map
          fun i => env.process i (orchestrator.processArgs blueprint adapterCls i) := by
      simp only [start, hresolve, orchestrator.spawnLoop_eq blueprint env adapterCls _
        (fun i hi => List.mem_range.mp hi) [], List.nil_append]
      cases (List.range orchestrator.coreIds.length).findSome? env.launch with
      | none => exact collectTelemetry_spawned blueprint env _
      | some e => rfl
    exact ⟨adapterCls, hspawned ▸ (List.takeWhile_prefix _).map _⟩

/-- A fleet has one process a core. -/
theorem fleet_length (adapterCls : AdapterClass) :
    (orchestrator.fleet blueprint env adapterCls).length = orchestrator.coreIds.length := by
  rw [fleet, List.length_map, List.length_range]

/-- A fleet that is started completely is joined, drained and reported on. -/
theorem start_eq {adapterCls : AdapterClass} (h : orchestrator.Spawns blueprint env adapterCls) :
    orchestrator.start blueprint env =
      collectTelemetry blueprint env (orchestrator.fleet blueprint env adapterCls) := by
  have hlaunched : ∀ i ∈ List.range orchestrator.coreIds.length, env.launch i = none :=
    fun i hi => h.launched i (List.mem_range.mp hi)
  have hloop := orchestrator.spawnLoop_eq blueprint env adapterCls
    (List.range orchestrator.coreIds.length) (fun i hi => List.mem_range.mp hi) []
  rw [List.nil_append, List.findSome?_eq_none_iff.mpr hlaunched,
    List.takeWhile_eq_self_iff.mpr fun i hi => by rw [hlaunched i hi, Option.isNone_none]] at hloop
  simp only [start, h.resolved, hloop]
  rw [← fleet]

/-- Its report is on all the fleet puts, when the queue's pipe takes that. -/
theorem start_outcome_of_holds {adapterCls : AdapterClass}
    (h : orchestrator.Spawns blueprint env adapterCls)
    (hholds : env.QueueHolds orchestrator.coreIds.length
      ((orchestrator.fleet blueprint env adapterCls).flatMap WorkerProcess.put)) :
    (orchestrator.start blueprint env).outcome =
      .ofExcept (reportTelemetry blueprint env orchestrator.coreIds.length (env.drain
        ((orchestrator.fleet blueprint env adapterCls).flatMap WorkerProcess.put))) := by
  have hlength := orchestrator.fleet_length blueprint env adapterCls
  rw [orchestrator.start_eq blueprint env h, ← hlength]
  rw [← hlength] at hholds
  exact collectTelemetry_of_holds blueprint env hholds

/-- When the pipe does not take it, the run never ends. -/
theorem start_outcome_of_not_holds {adapterCls : AdapterClass}
    (h : orchestrator.Spawns blueprint env adapterCls)
    (hfull : ¬ env.QueueHolds orchestrator.coreIds.length
      ((orchestrator.fleet blueprint env adapterCls).flatMap WorkerProcess.put)) :
    (orchestrator.start blueprint env).outcome = .blocked := by
  rw [← orchestrator.fleet_length blueprint env adapterCls] at hfull
  rw [orchestrator.start_eq blueprint env h]
  exact collectTelemetry_of_not_holds blueprint env hfull

/-- A completed run returns the summary of what it collected. -/
theorem start_ok {summary : ClusterTelemetrySummary}
    (hsummary : (orchestrator.start blueprint env).outcome = .ok summary) :
    summary = clusterSummary blueprint env (orchestrator.start blueprint env).spawned.length
      (orchestrator.start blueprint env).collected := by
  unfold start at hsummary ⊢
  split at hsummary
  · cases hsummary
  · split at hsummary
    · cases hsummary
    · rw [collectTelemetry_spawned]
      exact collectTelemetry_ok blueprint env hsummary

end MultiCoreOrchestrator

end Start

end Steve.Orchestrator
