import Steve.Orchestrator.WorkerWrites

/-!
# What a worker run reports about its writes

Replaying the write calls of a run on the adapter gives its replies: some byte counts, and
after them at most one exception. The collector holds the byte counts, the exception is the
one the loop ended with, and cleanup takes over the adapter where the replies leave it. So
the result, and whether there is one, can be read off the replies.
-/

namespace Steve.Orchestrator

open Steve.Library
open Steve.Adapters
open Steve.Payload
open Steve.Validation

section Replies

variable {σ : Type} (adapter : TargetAdapter σ) (descriptor : TargetDescriptor)

/-- The adapter's answer to a write call. -/
def answerWrite (state : σ) (call : WriteCall) : Except PyException ℕ × σ :=
  adapter.write state descriptor call.offset call.payload

/-- The adapter's answers to a sequence of write calls. -/
def writeReplies (ready : σ) (calls : List WriteCall) : List (Except PyException ℕ) :=
  machineOutputs (answerWrite adapter descriptor) ready calls

/-- The adapter's state after a sequence of write calls. -/
def adapterAfter (ready : σ) (calls : List WriteCall) : σ :=
  machineState (answerWrite adapter descriptor) ready calls

/-- Byte counts followed by the exception that ended them, if any. -/
def repliesOf (byteCounts : List ℕ) (raised : Option PyException) :
    List (Except PyException ℕ) :=
  byteCounts.map .ok ++ raised.toList.map .error

/-- The answer of the cleanup: a flush whose outcome is ignored, then a close. -/
def cleanup (state : σ) : Except PyException Unit :=
  match adapter.close with
  | none => .ok ()
  | some close => (close (adapter.flush state descriptor).2).1

end Replies

section Loop

variable {σ : Type} (adapter : TargetAdapter σ) (spec : WorkerShardSpec)
  (descriptor : TargetDescriptor) (env : WorkerEnvironment)

/-- The adapter and the collector in step with the write calls. -/
structure AccountingInv (ready : σ) (raised : Option PyException)
    (state : HotLoopState spec.blockSizeBytes σ) : Prop where
  replayed : state.adapter = adapterAfter adapter descriptor ready state.attempted
  replies : ∃ byteCounts,
    writeReplies adapter descriptor ready state.attempted = repliesOf byteCounts raised ∧
      state.collector.totalOps = byteCounts.length ∧
      state.collector.totalBytes = byteCounts.sum

/-- One execution of the loop body accounts for its write call. -/
theorem accountingInv_body (hseed : spec.seed < 2 ^ 64) {ready : σ} {address : ℕ}
    {state : HotLoopState spec.blockSizeBytes σ} (hloop : HotLoopInv spec address none state)
    (h : AccountingInv adapter spec descriptor ready none state) :
    AccountingInv adapter spec descriptor ready
      (hotLoopBody adapter spec descriptor env state).1
      (hotLoopBody adapter spec descriptor env state).2 := by
  obtain ⟨mutated, hmutated, -⟩ := PySIMDPayloadMutator.applyEntropy_wholeBlock hseed hloop.block
  obtain ⟨byteCounts, hreplies, hops, hbytes⟩ := h.replies
  have hadapter (call : WriteCall) : adapterAfter adapter descriptor ready
      (state.attempted ++ [call]) = (answerWrite adapter descriptor state.adapter call).2 := by
    rw [adapterAfter, machineState_concat, ← adapterAfter, ← h.replayed]
  have hreply (call : WriteCall) : writeReplies adapter descriptor ready
      (state.attempted ++ [call]) =
        byteCounts.map .ok ++ [(answerWrite adapter descriptor state.adapter call).1] := by
    rw [writeReplies, machineOutputs_concat, ← writeReplies, hreplies, ← adapterAfter,
      ← h.replayed]
    simp [repliesOf]
  simp only [hotLoopBody, hmutated]
  cases hwrite : adapter.write state.adapter descriptor state.offset
      (mutated.contents (PySIMDPayloadMutator.wholeBuffer spec.blockSizeBytes address)) with
  | mk answer next =>
    cases answer with
    | error e =>
      refine ⟨?_, byteCounts, ?_, hops, hbytes⟩
      · rw [hadapter, answerWrite, hwrite]
      · rw [hreply, answerWrite, hwrite]
        rfl
    | ok bytesWritten =>
      refine ⟨?_, byteCounts ++ [bytesWritten], ?_, ?_, ?_⟩
      · rw [hadapter, answerWrite, hwrite]
      · rw [hreply, answerWrite, hwrite]
        simp [repliesOf]
      · simp [MetricCollector.recordBytes, MetricCollector.recordLatency, hops]
      · simp [MetricCollector.recordBytes, MetricCollector.recordLatency, hbytes]

/-- The whole hot loop accounts for its write calls. -/
theorem accountingInv_hotLoop (hseed : spec.seed < 2 ^ 64) (ready : σ)
    (address queueDepth : ℕ) :
    AccountingInv adapter spec descriptor ready
      (hotLoop adapter spec descriptor env queueDepth (hotLoopInit spec ready address)).1
      (hotLoop adapter spec descriptor env queueDepth (hotLoopInit spec ready address)).2 := by
  let Holds (raised : Option PyException) (state : HotLoopState spec.blockSizeBytes σ) : Prop :=
    HotLoopInv spec address raised state ∧
      AccountingInv adapter spec descriptor ready raised state
  have hall : Holds
      (hotLoop adapter spec descriptor env queueDepth (hotLoopInit spec ready address)).1
      (hotLoop adapter spec descriptor env queueDepth (hotLoopInit spec ready address)).2 := by
    apply repeatUntilRaise_spec Holds
    · intro batch hbatch
      apply repeatUntilRaise_spec Holds _ _ _ hbatch
      intro state hstate
      exact ⟨hotLoopInv_body adapter spec descriptor env hseed hstate.1,
        accountingInv_body adapter spec descriptor env hseed hstate.1 hstate.2⟩
    · exact ⟨hotLoopInv_init spec ready address, rfl, [], rfl, rfl, rfl⟩
  exact hall.2

/-- A loop that ends without raising makes whole batches of write calls. -/
theorem hotLoop_attempted_length (ready : σ) (address queueDepth : ℕ)
    (h : (hotLoop adapter spec descriptor env queueDepth
      (hotLoopInit spec ready address)).1 = none) :
    (hotLoop adapter spec descriptor env queueDepth
      (hotLoopInit spec ready address)).2.attempted.length =
        (env.laterBatches + 1) * queueDepth := by
  let measure (state : HotLoopState spec.blockSizeBytes σ) : ℕ := state.attempted.length
  have hbody (state : HotLoopState spec.blockSizeBytes σ)
      (hnone : (hotLoopBody adapter spec descriptor env state).1 = none) :
      measure (hotLoopBody adapter spec descriptor env state).2 = measure state + 1 := by
    unfold hotLoopBody at hnone ⊢
    split at hnone
    · cases hnone
    · simp only at hnone ⊢
      split at hnone
      · cases hnone
      · simp [measure]
  have hbatch (state : HotLoopState spec.blockSizeBytes σ)
      (hnone : (repeatUntilRaise (hotLoopBody adapter spec descriptor env) queueDepth
        state).1 = none) :
      measure (repeatUntilRaise (hotLoopBody adapter spec descriptor env) queueDepth state).2 =
        measure state + queueDepth := by
    rw [repeatUntilRaise_gain measure hbody queueDepth state hnone, Nat.mul_one]
  have hloop := repeatUntilRaise_gain measure hbatch (env.laterBatches + 1)
    (hotLoopInit spec ready address) h
  simpa [measure, hotLoop, hotLoopInit] using hloop

/-- The engine run once the hot loop has ended. -/
theorem runHotLoop_eq (ready : σ) (address queueDepth : ℕ) :
    runHotLoop adapter spec descriptor env ready address queueDepth =
      let (raised, final) := hotLoop adapter spec descriptor env queueDepth
        (hotLoopInit spec ready address)
      ⟨(cleanup adapter descriptor final.adapter).map fun _ =>
          workerResult spec env final.collector (raised.map (hotLoopErrorMessage spec)),
        final.attempted⟩ := by
  simp only [runHotLoop, cleanup]
  cases adapter.close with
  | none => rfl
  | some close =>
    simp only
    cases (close (adapter.flush (hotLoop adapter spec descriptor env queueDepth
      (hotLoopInit spec ready address)).2.adapter descriptor).2).1 with
    | error e => rfl
    | ok _ => rfl

/-- Everything before the hot loop succeeds. -/
structure Bootstraps (created ready : σ) (address : ℕ) (capabilities : AdapterCapabilities) :
    Prop where
  construct : adapter.construct = .ok created
  initializeAdapter : adapter.initializeAdapter created = (.ok (), ready)
  mmap : env.mmap spec.blockSizeBytes = .ok address
  capabilities : adapter.capabilities ready = .ok capabilities

/-- A bootstrap leaves the adapter in one state. -/
theorem Bootstraps.ready_eq {created ready : σ} {address : ℕ}
    {capabilities : AdapterCapabilities} {created' ready' : σ} {address' : ℕ}
    {capabilities' : AdapterCapabilities}
    (h : Bootstraps adapter spec env created ready address capabilities)
    (h' : Bootstraps adapter spec env created' ready' address' capabilities') : ready' = ready := by
  have hcreated : created' = created := by
    have heq := h'.construct.symm.trans h.construct
    rwa [Except.ok.injEq] at heq
  have heq := h'.initializeAdapter
  rw [hcreated, h.initializeAdapter, Prod.mk.injEq] at heq
  exact heq.2.symm

/-- An engine that gets past its bootstrap runs the hot loop. -/
theorem execute_of_bootstraps {created ready : σ} {address : ℕ}
    {capabilities : AdapterCapabilities}
    (h : Bootstraps adapter spec env created ready address capabilities) (targetUri : String) :
    execute adapter spec env targetUri =
      runHotLoop adapter spec (workerDescriptor spec targetUri) env ready address
        capabilities.maxConcurrentOps := by
  simp only [execute, h.construct, h.initializeAdapter, h.mmap, h.capabilities]

/-- A run past its bootstrap in terms of its replies: the calls are an initial segment of the
shard's writes, cleanup decides whether there is a result, and the result counts the
replies. -/
theorem execute_replies (hseed : spec.seed < 2 ^ 64) {created ready : σ} {address : ℕ}
    {capabilities : AdapterCapabilities}
    (h : Bootstraps adapter spec env created ready address capabilities) (targetUri : String) :
    ∃ (byteCounts : List ℕ) (raised : Option PyException) (collector : MetricCollector),
      (execute adapter spec env targetUri).outcome =
        (cleanup adapter (workerDescriptor spec targetUri)
          (adapterAfter adapter (workerDescriptor spec targetUri) ready
            (execute adapter spec env targetUri).attempted)).map
          (fun _ => workerResult spec env collector (raised.map (hotLoopErrorMessage spec))) ∧
      (execute adapter spec env targetUri).attempted = shardWrites spec address
        (execute adapter spec env targetUri).attempted.length ∧
      writeReplies adapter (workerDescriptor spec targetUri) ready
        (execute adapter spec env targetUri).attempted = repliesOf byteCounts raised ∧
      collector.totalOps = byteCounts.length ∧ collector.totalBytes = byteCounts.sum ∧
      (raised = none → (execute adapter spec env targetUri).attempted.length =
        (env.laterBatches + 1) * capabilities.maxConcurrentOps) := by
  rw [execute_of_bootstraps adapter spec env h, runHotLoop_eq]
  have hcalls := (hotLoopInv_hotLoop adapter spec (workerDescriptor spec targetUri) env hseed
    ready address capabilities.maxConcurrentOps).attempted
  have haccounts := accountingInv_hotLoop adapter spec (workerDescriptor spec targetUri) env hseed
    ready address capabilities.maxConcurrentOps
  have hbatches := hotLoop_attempted_length adapter spec (workerDescriptor spec targetUri) env
    ready address capabilities.maxConcurrentOps
  cases hloop : hotLoop adapter spec (workerDescriptor spec targetUri) env
      capabilities.maxConcurrentOps (hotLoopInit spec ready address) with
  | mk raised final =>
    rw [hloop] at hcalls haccounts hbatches
    obtain ⟨byteCounts, hreplies, hops, hbytes⟩ := haccounts.replies
    refine ⟨byteCounts, raised, final.collector, ?_, hcalls, hreplies, hops, hbytes, hbatches⟩
    simp only [← haccounts.replayed]

/-- An engine that does not get past its bootstrap raises without a write call. -/
theorem execute_bootstraps_or_raises (targetUri : String) :
    (∃ created ready address capabilities,
      Bootstraps adapter spec env created ready address capabilities) ∨
    ∃ e, execute adapter spec env targetUri = ⟨.error e, []⟩ := by
  unfold execute
  split
  · rename_i e _
    exact Or.inr ⟨e, rfl⟩
  · rename_i created hcreated
    split
    · rename_i e _ _
      exact Or.inr ⟨e, rfl⟩
    · rename_i ready hready
      split
      · rename_i e _
        exact Or.inr ⟨e, rfl⟩
      · rename_i address hmmap
        split
        · rename_i e _
          exact Or.inr ⟨e, rfl⟩
        · rename_i capabilities hcapabilities
          exact Or.inl ⟨created, ready, address, capabilities, hcreated, hready, hmmap,
            hcapabilities⟩

end Loop

/-- All replies are byte counts exactly when no exception ended them. -/
theorem repliesOf_forall_ok (byteCounts : List ℕ) (raised : Option PyException) :
    (∀ reply ∈ repliesOf byteCounts raised, ∃ byteCount, reply = .ok byteCount) ↔
      raised = none := by
  cases raised with
  | none => simp [repliesOf]
  | some e =>
    simp only [reduceCtorEq, iff_false]
    intro h
    obtain ⟨byteCount, hok⟩ := h (.error e) (by simp [repliesOf])
    cases hok

/-- Without failed replies the byte counts are as many as the replies. -/
theorem repliesOf_none_length (byteCounts : List ℕ) :
    (repliesOf byteCounts none).length = byteCounts.length := by
  simp [repliesOf]

section Shards

variable {σ : Type} (adapter : TargetAdapter σ) (env : WorkerEnvironment)
  {globalSeed : ℤ} {nodes : List (String × ℕ)} {target : ℤ} {blockSize : ℕ}
  {spec : WorkerShardSpec}

/-- A run with a result that accounts for its write calls: they go to the shard's offsets in
turn, the first failure ends them, and the result counts the successful ones. -/
structure Accounted (spec : WorkerShardSpec) (descriptor : TargetDescriptor) (ready : σ)
    (queueDepth laterBatches : ℕ) (run : EngineRun) (result : WorkerTelemetryResult)
    (byteCounts : List ℕ) (raised : Option PyException) : Prop where
  outcome : run.outcome = .ok result
  offsets : run.attempted.map WriteCall.offset =
    (List.range run.attempted.length).map (writeOffset spec)
  replies : writeReplies adapter descriptor ready run.attempted = repliesOf byteCounts raised
  totalOps : result.totalOps = byteCounts.length
  totalBytes : result.totalBytes = byteCounts.sum
  errorMessage : result.errorMessage = raised.map (hotLoopErrorMessage spec)
  batches : raised = none → queueDepth ∣ result.totalOps
  /-- an error-free run attempts every write of every batch the timer lets it start -/
  attempts : raised = none → run.attempted.length = (laterBatches + 1) * queueDepth

/-- Every run past its bootstrap whose adapter closes cleanly accounts for its write calls. -/
theorem execute_accounted (hspec : spec ∈ clusterShards globalSeed nodes target blockSize)
    {created ready : σ} {address : ℕ} {capabilities : AdapterCapabilities}
    (hboot : Bootstraps adapter spec env created ready address capabilities)
    (hclose : ∀ close, adapter.close = some close → ∀ state, (close state).1 = .ok ())
    (targetUri : String) :
    ∃ result byteCounts raised, Accounted adapter spec (workerDescriptor spec targetUri) ready
      capabilities.maxConcurrentOps env.laterBatches (execute adapter spec env targetUri) result
        byteCounts raised := by
  obtain ⟨byteCounts, raised, collector, houtcome, hcalls, hreplies, hops, hbytes, hbatches⟩ :=
    execute_replies adapter spec env (clusterShards_seed_lt hspec) hboot targetUri
  have hcleanup (state : σ) : cleanup adapter (workerDescriptor spec targetUri) state = .ok () := by
    unfold cleanup
    split
    · rfl
    · rename_i close heq
      exact hclose close heq _
  rw [hcleanup] at houtcome
  refine ⟨workerResult spec env collector (raised.map (hotLoopErrorMessage spec)), byteCounts,
    raised, houtcome, ?_, hreplies, hops, hbytes, rfl, ?_, hbatches⟩
  · rw [hcalls, shardWrites_length, shardWrites, List.map_map]
    rfl
  · intro hnone
    have hlength := congrArg List.length hreplies
    rw [writeReplies, machineOutputs_length, hbatches hnone, hnone, repliesOf_none_length,
      ← hops] at hlength
    exact ⟨env.laterBatches + 1, by rw [workerResult, ← hlength, Nat.mul_comm]⟩

/-- The bootstrap, the given write calls and the close all succeed. -/
def StepsSucceed (spec : WorkerShardSpec) (targetUri : String) (calls : List WriteCall) : Prop :=
  ∃ created ready address capabilities,
    Bootstraps adapter spec env created ready address capabilities ∧
    (∀ reply ∈ writeReplies adapter (workerDescriptor spec targetUri) ready calls,
      ∃ byteCount, reply = .ok byteCount) ∧
    cleanup adapter (workerDescriptor spec targetUri)
      (adapterAfter adapter (workerDescriptor spec targetUri) ready calls) = .ok ()

/-- Every worker process puts exactly one result, with its shard's identity, and the result
is free of an error exactly when every step but the flush succeeds. -/
theorem runWorkerProcess_queued
    (hspec : spec ∈ clusterShards globalSeed nodes target blockSize) (targetUri : String) :
    ∃ result, (runWorkerProcess adapter spec env targetUri).queued = [result] ∧
      result.nodeId = spec.nodeId ∧ result.coreId = spec.coreId ∧
      (result.errorMessage = none ↔ StepsSucceed adapter env spec targetUri
        (runWorkerProcess adapter spec env targetUri).attempted) := by
  have hattempted : (runWorkerProcess adapter spec env targetUri).attempted =
      (execute adapter spec env targetUri).attempted := rfl
  rw [hattempted, StepsSucceed]
  cases execute_bootstraps_or_raises adapter spec env targetUri with
  | inl hbootstraps =>
    obtain ⟨created, ready, address, capabilities, hboot⟩ := hbootstraps
    obtain ⟨byteCounts, raised, collector, houtcome, -, hreplies, -⟩ :=
      execute_replies adapter spec env (clusterShards_seed_lt hspec) hboot targetUri
    cases hclean : cleanup adapter (workerDescriptor spec targetUri)
        (adapterAfter adapter (workerDescriptor spec targetUri) ready
          (execute adapter spec env targetUri).attempted) with
    | error e =>
      rw [hclean] at houtcome
      refine ⟨bootstrapErrorResult spec e, ?_, rfl, rfl, ?_⟩
      · simp only [runWorkerProcess, houtcome, Except.map]
      · simp only [bootstrapErrorResult, reduceCtorEq, false_iff]
        intro h
        obtain ⟨created', ready', address', capabilities', hboot', -, hclean'⟩ := h
        rw [hboot.ready_eq adapter spec env hboot', hclean] at hclean'
        cases hclean'
    | ok _ =>
      rw [hclean] at houtcome
      refine ⟨workerResult spec env collector (raised.map (hotLoopErrorMessage spec)), ?_, rfl,
        rfl, ?_⟩
      · simp only [runWorkerProcess, houtcome, Except.map]
      · rw [workerResult, Option.map_eq_none_iff, ← repliesOf_forall_ok byteCounts, ← hreplies]
        constructor
        · intro h
          exact ⟨created, ready, address, capabilities, hboot, h, hclean⟩
        · intro h
          obtain ⟨created', ready', address', capabilities', hboot', hok, -⟩ := h
          rwa [hboot.ready_eq adapter spec env hboot'] at hok
  | inr hraises =>
    obtain ⟨e, hraises⟩ := hraises
    refine ⟨bootstrapErrorResult spec e, ?_, rfl, rfl, ?_⟩
    · simp only [runWorkerProcess, hraises]
    · simp only [bootstrapErrorResult, reduceCtorEq, false_iff]
      intro h
      obtain ⟨created, ready, address, capabilities, hboot, -, hclean⟩ := h
      obtain ⟨_, _, _, houtcome, -⟩ :=
        execute_replies adapter spec env (clusterShards_seed_lt hspec) hboot targetUri
      rw [hclean, hraises] at houtcome
      cases houtcome

end Shards

/-- An adapter in front of a device of limited capacity. -/
def fullDeviceAdapter (maxConcurrentOps capacity : ℕ) : TargetAdapter Unit :=
  { acceptingAdapter maxConcurrentOps with
    write := fun state _ offset payload =>
      if offset + payload.view.length ≤ capacity then (.ok payload.view.length, state)
      else (.error ⟨.osError 28, "[Errno 28] No space left on device"⟩, state) }

/-- The only shard of a cluster of one core. -/
def soleShard : WorkerShardSpec := shardSpec 0 1 0 4096 "node-0" 0 0

/-- It is the one the generator returns. -/
theorem soleShard_mem : soleShard ∈ clusterShards 0 [("node-0", 1)] 0 4096 := by decide

/-- A run in batches of two on a device with room for two and a half blocks. -/
theorem execute_accounted_full_device :
    ∃ result byteCounts raised, Accounted (fullDeviceAdapter 2 10240) soleShard
      (workerDescriptor soleShard "file:///tmp/steve") () 2 3
      (execute (fullDeviceAdapter 2 10240) soleShard (acceptingRun 2 3).env "file:///tmp/steve")
      result byteCounts raised :=
  have hboot : Bootstraps (fullDeviceAdapter 2 10240) soleShard (acceptingRun 2 3).env () ()
      0x1000 ⟨false, false, 2, 4096⟩ := ⟨rfl, rfl, rfl, rfl⟩
  execute_accounted _ _ soleShard_mem hboot (fun _ hnone => by cases hnone) _

/-- The process of that run puts one result on the queue. -/
theorem runWorkerProcess_queued_full_device :
    ∃ result, (runWorkerProcess (fullDeviceAdapter 2 10240) soleShard (acceptingRun 2 3).env
        "file:///tmp/steve").queued = [result] ∧
      result.nodeId = "node-0" ∧ result.coreId = 0 ∧
      (result.errorMessage = none ↔ StepsSucceed (fullDeviceAdapter 2 10240)
        (acceptingRun 2 3).env soleShard "file:///tmp/steve"
        (runWorkerProcess (fullDeviceAdapter 2 10240) soleShard (acceptingRun 2 3).env
          "file:///tmp/steve").attempted) :=
  runWorkerProcess_queued _ _ soleShard_mem _

end Steve.Orchestrator
