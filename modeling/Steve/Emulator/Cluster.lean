import Steve.Emulator.NodeWorker
import Steve.Orchestrator.Master
import Steve.Orchestrator.Sync

/-!
# The local cluster emulator

One run shards the emulated nodes, lets every node signal the barrier, starts one process
for each core of each node, joins them, drains the result queue and reports. A process puts
a result on the queue only if its worker returns one, and exits only once that is in the
queue's pipe, which nobody reads before the last join. Neither exit codes nor missing results
are looked at, and the responses of the barrier are dropped.
-/

namespace Steve.Emulator

open Steve.Library
open Steve.Adapters
open Steve.Orchestrator
open Steve.Validation

/-- The digits of `f"{i:02d}"`. -/
def twoDigits (i : ℕ) : List Char :=
  let digits := Nat.toDigits 10 i
  List.replicate (2 - digits.length) '0' ++ digits

/-- `f"node-{i:02d}"`. -/
def nodeName (i : ℕ) : String := "node-" ++ String.ofList (twoDigits i)

/-- `int(value)`, which drops the fraction. -/
def truncated (value : ℚ) : ℤ := if value < 0 then -⌊-value⌋ else ⌊value⌋

/-- The shape of the emulated cluster. -/
structure LocalClusterEmulator where
  nodeCount : ℕ
  coresPerNode : ℕ
  deriving DecidableEq, Repr

/-- One process to start: its node and core, and its shard. -/
structure NodeTask where
  nodeId : String
  coreId : ℕ
  spec : WorkerShardSpec
  deriving DecidableEq, Repr

/-- What the surroundings of one emulated run decide. -/
structure EmulatorEnvironment where
  tmpDir : String
  /-- the failure to start the process of a number -/
  launch : ℕ → Option PyException
  node : String → ℕ → NodeEnvironment
  /-- whether the process of a number exits although nobody reads the queue, on which the
  given results were put -/
  exits : List WorkerTelemetryResult → ℕ → Bool
  /-- what the drain loop takes off a queue on which the given results were put -/
  drain : List WorkerTelemetryResult → List WorkerTelemetryResult
  elapsedSec : ℚ

/-- The queue's pipe takes the given results unread, so that every process exits. -/
def EmulatorEnvironment.QueueHolds (env : EmulatorEnvironment) (processes : ℕ)
    (put : List WorkerTelemetryResult) : Prop :=
  ∀ k < processes, env.exits put k = true

/-- Everything put on the queue is drained, once, in some order. -/
def EmulatorEnvironment.QueueVisible (env : EmulatorEnvironment) : Prop :=
  ∀ put, (env.drain put).Perm put

/-- The prefix of the paths of all files of a run. -/
def EmulatorEnvironment.baseTarget (env : EmulatorEnvironment) : String :=
  env.tmpDir ++ "/cluster_sim"

/-- What a worker's process leaves on the queue. -/
def NodeRun.put (run : NodeRun) : List WorkerTelemetryResult :=
  match run.outcome with
  | .ok result => [result]
  | .error _ => []

/-- One emulated run. -/
structure EmulatorRun where
  spawned : List NodeRun
  collected : List WorkerTelemetryResult
  outcome : CallOutcome PyException ClusterTelemetrySummary

namespace LocalClusterEmulator

variable (emulator : LocalClusterEmulator) (targetGbps : ℚ) (blockSize : ℕ)
  (env : EmulatorEnvironment)

/-- The nodes with their core counts. -/
def nodes : List (String × ℕ) :=
  (List.range emulator.nodeCount).map fun i => (nodeName i, emulator.coresPerNode)

/-- The processes of a run, node after node. -/
def tasks : List NodeTask :=
  let targetBps := truncated (targetGbps * 1024 ^ 3)
  let shards := generateClusterShards 12345 emulator.nodes targetBps blockSize
  emulator.nodes.flatMap fun node =>
    ((shards.get? node.1).getD []).mapIdx fun coreIdx spec => ⟨node.1, coreIdx, spec⟩

/-- The worker of a task. -/
def runTask (task : NodeTask) : NodeRun :=
  runSimulatedNodeWorker task.nodeId task.coreId task.spec env.baseTarget
    (env.node task.nodeId task.coreId)

/-- Start the remaining processes, up to the first that cannot be started. -/
def spawnNodes : List NodeTask → List NodeRun → Option PyException × List NodeRun
  | [], processes => (none, processes)
  | task :: rest, processes =>
    match env.launch processes.length with
    | some e => (some e, processes)
    | none => spawnNodes rest (processes ++ [runTask env task])

/-- The report on the drained results. -/
def emulatedSummary (totalCores : ℕ) (results : List WorkerTelemetryResult) :
    ClusterTelemetrySummary :=
  let elapsedSec := max env.elapsedSec (1 / 1000000)
  let totalOps := (results.map WorkerTelemetryResult.totalOps).sum
  let totalBytes := (results.map WorkerTelemetryResult.totalBytes).sum
  let p99Latencies := if results = [] then [0] else results.map WorkerTelemetryResult.p99Ms
  let tmpDir := env.tmpDir
  { runId := "local-cluster-sim-01"
    targetUri := s!"posix://{tmpDir}/cluster_sim"
    totalCores := totalCores
    totalOps := totalOps
    totalBytes := totalBytes
    durationSec := elapsedSec
    aggregateThroughputGbps := (totalBytes * 8 : ℕ) / (elapsedSec * 1000000000)
    maxP99Ms := listMax p99Latencies
    avgP99Ms := p99Latencies.sum / p99Latencies.length
    workers := results
    divergence := none }

/-- `run_emulated_cluster`, from the handshake's end on. -/
def runEmulatedCluster : EmulatorRun :=
  match spawnNodes env (emulator.tasks targetGbps blockSize) [] with
  | (some e, processes) => ⟨processes, [], .error e⟩
  | (none, processes) =>
    let put := processes.flatMap NodeRun.put
    match joinEach (env.exits put) 0 processes with
    | (_, false) => ⟨processes, [], .blocked⟩
    | (_, true) =>
      let results := env.drain put
      ⟨processes, results, .ok (emulatedSummary env processes.length results)⟩

end LocalClusterEmulator

section Names

/-- The digits of a node's number read back as the number. -/
theorem ofDigitChars_twoDigits (i : ℕ) : Nat.ofDigitChars 10 (twoDigits i) 0 = i := by
  have hzeros (count : ℕ) : Nat.ofDigitChars 10 (List.replicate count '0') 0 = 0 := by
    induction count with
    | zero => rfl
    | succ count ih => rw [List.replicate_succ, Nat.ofDigitChars_cons]; exact ih
  rw [twoDigits, Nat.ofDigitChars_append, hzeros, Nat.ofDigitChars_ten_toDigits]

/-- Nodes with different numbers have different names. -/
theorem nodeName_injective : Function.Injective nodeName := by
  intro i j h
  rw [nodeName, nodeName, String.append_right_inj, String.ofList_inj] at h
  rw [← ofDigitChars_twoDigits i, h, ofDigitChars_twoDigits]

variable (emulator : LocalClusterEmulator)

/-- The names of the emulated nodes are pairwise distinct. -/
theorem LocalClusterEmulator.nodes_nodup : (emulator.nodes.map Prod.fst).Nodup := by
  have hnames : emulator.nodes.map Prod.fst = (List.range emulator.nodeCount).map nodeName := by
    rw [LocalClusterEmulator.nodes, List.map_map]
    rfl
  rw [hnames]
  exact List.nodup_range.map nodeName_injective

/-- The cluster has as many cores as all its nodes together. -/
theorem LocalClusterEmulator.totalCores_nodes :
    totalCores emulator.nodes = emulator.nodeCount * emulator.coresPerNode := by
  have hcounts : emulator.nodes.map Prod.snd =
      List.replicate emulator.nodeCount emulator.coresPerNode := by
    rw [LocalClusterEmulator.nodes, List.map_map, Function.comp_def, List.map_const',
      List.length_range]
  rw [totalCores, hcounts, List.sum_replicate_nat]

end Names

end Steve.Emulator
