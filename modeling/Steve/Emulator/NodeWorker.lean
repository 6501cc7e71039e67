import Steve.Adapters.Os
import Steve.Orchestrator.Worker

/-!
# The worker of an emulated node

The local cluster emulator runs workers of its own, one process for each core of each
emulated node. Such a worker writes its file with bare system calls, and advances the seed it
hands to the mutator by one with every operation. Nothing in its loop is caught: the first
exception ends the loop and, after the file is closed, the process, which then reports no
result. Releasing the mutator suppresses every exception and is left out.

The states keep a log of the seeds handed to the mutator and of the blocks handed to the
operating system, which no code reads.
-/

namespace Steve.Emulator

open Steve.Library
open Steve.Adapters
open Steve.Orchestrator (WorkerShardSpec WriteCall)
open Steve.Payload
open Steve.Validation

/-- A call of `apply_entropy`: the seed it was given, and what it raised. -/
structure EntropyCall where
  seed : ℕ
  raised : Option PyException
  deriving DecidableEq, Repr

/-- What the surroundings of an emulated worker decide during one run. -/
structure NodeEnvironment where
  /-- the address of a new mapping of the given size, or the failure to map it -/
  mmap : ℕ → Except PyException ℕ
  /-- the descriptor of the file at a path, or the failure to open it -/
  openFile : String → Except OsError ℕ
  /-- the operations the timer lets begin -/
  timedOps : ℕ
  /-- how moving the cursor ends, by the number of the operation -/
  lseek : ℕ → Except OsError Unit
  /-- how many bytes are written, or how writing fails, by the number of the operation -/
  write : ℕ → Except OsError ℕ
  /-- the latency measured around each operation, by its number -/
  elapsedNs : ℕ → ℕ
  closeFile : Except OsError Unit
  /-- the time measured around the whole loop -/
  measuredSec : ℚ

/-- The variables of the loop, with both logs. -/
structure NodeLoopState (size : ℕ) where
  mutator : PySIMDPayloadMutator size
  collector : MetricCollector
  offset : ℕ
  ops : ℕ
  totalBytes : ℕ
  entropyCalls : List EntropyCall
  attempted : List WriteCall

/-- The path of an emulated core's own file. -/
def nodeFile (targetPath nodeId : String) (coreId : ℕ) : String :=
  s!"{targetPath}_{nodeId}_core_{coreId}.dat"

section Run

variable (nodeId : String) (coreId : ℕ) (spec : WorkerShardSpec) (targetPath : String)
  (env : NodeEnvironment)

/-- The body of the loop: mutate the block with the advanced seed, move the cursor, write the
block, record the write, and stride on. -/
def nodeLoopBody (state : NodeLoopState spec.blockSizeBytes) :
    Option PyException × NodeLoopState spec.blockSizeBytes :=
  let seed := spec.seed + state.ops
  match state.mutator.applyEntropy 0 spec.blockSizeBytes seed with
  | (.error e, mutator) =>
    (some e, { state with
      mutator := mutator
      entropyCalls := state.entropyCalls ++ [⟨seed, some e⟩] })
  | (.ok buf, mutator) =>
    let mutated := { state with
      mutator := mutator
      entropyCalls := state.entropyCalls ++ [⟨seed, none⟩] }
    match env.lseek state.ops with
    | .error e => (some e.raised, mutated)
    | .ok () =>
      let called := { mutated with
        attempted := state.attempted ++ [⟨state.offset, mutator.contents buf⟩] }
      match env.write state.ops with
      | .error e => (some e.raised, called)
      | .ok written =>
        (none, { called with
          collector := (state.collector.recordLatency (env.elapsedNs state.ops)).recordBytes written
          offset := state.offset + spec.strideBytes
          ops := state.ops + 1
          totalBytes := state.totalBytes + written })

/-- The loop's variables before the timer is first read. -/
def nodeLoopInit (address : ℕ) : NodeLoopState spec.blockSizeBytes where
  mutator := PySIMDPayloadMutator.fresh spec.blockSizeBytes address
  collector := MetricCollector.init
  offset := spec.baseOffsetBytes
  ops := 0
  totalBytes := 0
  entropyCalls := []
  attempted := []

/-- The loop, until the timer expires or an operation raises. -/
def nodeLoop (address : ℕ) : Option PyException × NodeLoopState spec.blockSizeBytes :=
  repeatUntilRaise (nodeLoopBody spec env) env.timedOps (nodeLoopInit spec address)

/-- The result put on the queue after a loop that did not raise. -/
def nodeResult (collector : MetricCollector) : WorkerTelemetryResult :=
  let actualDuration := max env.measuredSec (1 / 1000000)
  { coreId := coreId
    nodeId := nodeId
    totalOps := collector.totalOps
    totalBytes := collector.totalBytes
    durationSec := actualDuration
    p50Ms := collector.p50LatencyMs
    p90Ms := collector.p90LatencyMs
    p99Ms := collector.p99LatencyMs
    p999Ms := collector.p999LatencyMs
    throughputGbps := collector.throughputGbps actualDuration
    errorMessage := none }

/-- A run of an emulated worker: the result it queues or the exception that ends its process,
and both logs. -/
structure NodeRun where
  outcome : Except PyException WorkerTelemetryResult
  entropyCalls : List EntropyCall
  attempted : List WriteCall

/-- `run_simulated_node_worker`; a failure to close the file replaces any other exception. -/
def runSimulatedNodeWorker : NodeRun :=
  match env.mmap spec.blockSizeBytes with
  | .error e => ⟨.error e, [], []⟩
  | .ok address =>
    match env.openFile (nodeFile targetPath nodeId coreId) with
    | .error e => ⟨.error e.raised, [], []⟩
    | .ok _ =>
      let (raised, final) := nodeLoop spec env address
      let outcome := match env.closeFile, raised with
        | .error e, _ => .error e.raised
        | .ok (), some e => .error e
        | .ok (), none => .ok (nodeResult nodeId coreId env final.collector)
      ⟨outcome, final.entropyCalls, final.attempted⟩

end Run

/-- Surroundings that fail nothing and write every block in full. -/
def acceptingNode (blockSize timedOps : ℕ) : NodeEnvironment where
  mmap := fun _ => .ok 0x1000
  openFile := fun _ => .ok 3
  timedOps := timedOps
  lseek := fun _ => .ok ()
  write := fun _ => .ok blockSize
  elapsedNs := fun _ => 1000
  closeFile := .ok ()
  measuredSec := 1

end Steve.Emulator
