import Steve.Adapters.Base
import Steve.Library.StepSystem
import Steve.Library.Text
import Steve.Orchestrator.Cluster
import Steve.Payload.Mutator
import Steve.Validation.Reporter

/-!
# The core-pinned worker

One worker builds its adapter and its mutator, then repeats batches of writes while the
timer lets it. The timer task runs only when the event loop does, so the flag it clears is
first tested before it can have changed, and a run is determined by the number of later
batches. The first exception ends the loop; it is reported in the result, after the
cleanup, whose own exceptions can still replace the result. The process entry point pins
its core, runs the engine, and puts one result on the queue.

The states keep a log of the write calls the adapter received, which no code reads.
-/

namespace Steve.Orchestrator

open Steve.Library
open Steve.Adapters
open Steve.Payload
open Steve.Validation

/-- A write call as the adapter receives it. -/
structure WriteCall where
  offset : ℕ
  payload : DirectBuffer (List Byte)
  deriving DecidableEq, Repr

/-- What a worker's surroundings decide during one run. -/
structure WorkerEnvironment where
  /-- the address of a new mapping of the given size, or the failure to map it -/
  mmap : ℕ → Except PyException ℕ
  /-- the latency measured around each write, by its number -/
  elapsedNs : ℕ → ℕ
  /-- the batches run after the first one before the flag reads false -/
  laterBatches : ℕ
  durationSec : ℚ

/-- The hot loop's variables, with the log of write calls. -/
structure HotLoopState (size : ℕ) (σ : Type) where
  adapter : σ
  mutator : PySIMDPayloadMutator size
  collector : MetricCollector
  offset : ℕ
  attempted : List WriteCall

/-- The path a worker writes to. -/
def resourcePath (targetUri : String) (coreId : ℕ) : String :=
  let stripped := replaceAll "posix://".toList [] (replaceAll "file://".toList [] targetUri.toList)
  let path :=
    if "/".toList.isPrefixOf stripped = false ∧ containsSubstring ":\\".toList stripped = false then
      "./".toList ++ stripped
    else stripped
  let base := String.ofList path
  s!"{base}_core_{coreId}.dat"

/-- The descriptor of a worker's own file. -/
def workerDescriptor (spec : WorkerShardSpec) (targetUri : String) : TargetDescriptor :=
  ⟨targetUri, resourcePath targetUri spec.coreId⟩

section Engine

variable {σ : Type} (adapter : TargetAdapter σ) (spec : WorkerShardSpec)
  (descriptor : TargetDescriptor) (env : WorkerEnvironment)

/-- The hot loop's body: mutate the block, write it, record the write, and stride on. -/
def hotLoopBody (state : HotLoopState spec.blockSizeBytes σ) :
    Option PyException × HotLoopState spec.blockSizeBytes σ :=
  match state.mutator.applyEntropy 0 spec.blockSizeBytes spec.seed with
  | (.error e, mutator) => (some e, { state with mutator := mutator })
  | (.ok buf, mutator) =>
    let payload := mutator.contents buf
    let called := { state with
      mutator := mutator
      attempted := state.attempted ++ [WriteCall.mk state.offset payload] }
    match adapter.write state.adapter descriptor state.offset payload with
    | (.error e, next) => (some e, { called with adapter := next })
    | (.ok bytesWritten, next) =>
      let elapsedNs := env.elapsedNs state.attempted.length
      (none, { called with
        adapter := next
        collector := (state.collector.recordLatency elapsedNs).recordBytes bytesWritten
        offset := state.offset + spec.strideBytes })

/-- The hot loop: batches of `queueDepth` writes while the flag reads true. -/
def hotLoop (queueDepth : ℕ) (state : HotLoopState spec.blockSizeBytes σ) :
    Option PyException × HotLoopState spec.blockSizeBytes σ :=
  repeatUntilRaise (repeatUntilRaise (hotLoopBody adapter spec descriptor env) queueDepth)
    (env.laterBatches + 1) state

/-- The hot loop's variables before its first batch. -/
def hotLoopInit (instanceState : σ) (address : ℕ) : HotLoopState spec.blockSizeBytes σ where
  adapter := instanceState
  mutator := PySIMDPayloadMutator.fresh spec.blockSizeBytes address
  collector := MetricCollector.init
  offset := spec.baseOffsetBytes
  attempted := []

/-- The result built from the collector once the loop has ended. -/
def workerResult (collector : MetricCollector) (errorMessage : Option String) :
    WorkerTelemetryResult :=
  let actualDuration := max env.durationSec (1 / 1000000)
  { coreId := spec.coreId
    nodeId := spec.nodeId
    totalOps := collector.totalOps
    totalBytes := collector.totalBytes
    durationSec := actualDuration
    p50Ms := collector.p50LatencyMs
    p90Ms := collector.p90LatencyMs
    p99Ms := collector.p99LatencyMs
    p999Ms := collector.p999LatencyMs
    throughputGbps := collector.throughputGbps actualDuration
    errorMessage := errorMessage }

/-- The message of an exception caught around the hot loop. -/
def hotLoopErrorMessage (raised : PyException) : String :=
  let core := spec.coreId
  let message := raised.message
  s!"Worker core {core} encountered error: {message}"

/-- One engine run: its outcome and the write calls it made. -/
structure EngineRun where
  outcome : Except PyException WorkerTelemetryResult
  attempted : List WriteCall

/-- The hot loop with its cleanup: a failed flush is only logged, a failed close escapes. -/
def runHotLoop (instanceState : σ) (address queueDepth : ℕ) : EngineRun :=
  let (raised, final) := hotLoop adapter spec descriptor env queueDepth
    (hotLoopInit spec instanceState address)
  let flushed := (adapter.flush final.adapter descriptor).2
  let closed : Except PyException Unit := match adapter.close with
    | none => .ok ()
    | some close => (close flushed).1
  match closed with
  | .error e => ⟨.error e, final.attempted⟩
  | .ok () =>
    ⟨.ok (workerResult spec env final.collector (raised.map (hotLoopErrorMessage spec))),
      final.attempted⟩

/-- `WorkerExecutionEngine.execute`; an exception before the hot loop escapes at once. -/
def execute (targetUri : String) : EngineRun :=
  match adapter.construct with
  | .error e => ⟨.error e, []⟩
  | .ok created =>
    match adapter.initializeAdapter created with
    | (.error e, _) => ⟨.error e, []⟩
    | (.ok (), ready) =>
      match env.mmap spec.blockSizeBytes with
      | .error e => ⟨.error e, []⟩
      | .ok address =>
        match adapter.capabilities ready with
        | .error e => ⟨.error e, []⟩
        | .ok capabilities =>
          runHotLoop adapter spec (workerDescriptor spec targetUri) env ready address
            capabilities.maxConcurrentOps

/-- What a worker process does that others can see. -/
structure ProcessRun where
  pinned : List ℕ
  queued : List WorkerTelemetryResult
  attempted : List WriteCall

/-- The result standing in for an engine run that raised. -/
def bootstrapErrorResult (raised : PyException) : WorkerTelemetryResult :=
  let message := raised.message
  { coreId := spec.coreId
    nodeId := spec.nodeId
    totalOps := 0
    totalBytes := 0
    durationSec := 0
    p50Ms := 0
    p90Ms := 0
    p99Ms := 0
    p999Ms := 0
    throughputGbps := 0
    errorMessage := some s!"Fatal worker bootstrap error: {message}" }

/-- `run_worker_process` with a queue: pin the core, run the engine, put one result. -/
def runWorkerProcess (targetUri : String) : ProcessRun :=
  let run := execute adapter spec env targetUri
  let result := match run.outcome with
    | .ok result => result
    | .error e => bootstrapErrorResult spec e
  { pinned := [spec.coreId]
    queued := [result]
    attempted := run.attempted }

end Engine

end Steve.Orchestrator
