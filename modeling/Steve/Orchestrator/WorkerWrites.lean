import Steve.Orchestrator.Seeds
import Steve.Orchestrator.Worker
import Steve.Payload.BlockMutation

/-!
# The write calls of a worker run

Whatever the adapter answers, however long the timer lets the loop run, and wherever it
raises, the write calls of a run are an initial segment of one sequence fixed by the shard:
call `t` goes to the base offset plus `t` strides and carries the block after `t + 1`
mutations. The invariant ties the loop's variables to the length of the call log.
-/

namespace Steve.Orchestrator

open Steve.Library
open Steve.Adapters
open Steve.Payload

/-- The offset of a worker's `t`-th write. -/
def writeOffset (spec : WorkerShardSpec) (t : ℕ) : ℕ :=
  spec.baseOffsetBytes + t * spec.strideBytes

/-- A worker's `t`-th write call. -/
def shardWrite (spec : WorkerShardSpec) (address t : ℕ) : WriteCall :=
  ⟨writeOffset spec t,
    ⟨address, spec.blockSizeBytes, blockAfter spec.seed spec.blockSizeBytes (t + 1)⟩⟩

/-- A worker's first `count` write calls. -/
def shardWrites (spec : WorkerShardSpec) (address count : ℕ) : List WriteCall :=
  (List.range count).map (shardWrite spec address)

/-- One more call extends the log by the next one of the sequence. -/
theorem shardWrites_succ (spec : WorkerShardSpec) (address count : ℕ) :
    shardWrites spec address (count + 1) =
      shardWrites spec address count ++ [shardWrite spec address count] := by
  simp [shardWrites, List.range_succ]

@[simp] theorem shardWrites_length (spec : WorkerShardSpec) (address count : ℕ) :
    (shardWrites spec address count).length = count := by
  simp [shardWrites]

section Loop

variable {σ : Type} (adapter : TargetAdapter σ) (spec : WorkerShardSpec)
  (descriptor : TargetDescriptor) (env : WorkerEnvironment)

/-- The loop's variables after some number of write calls, the last of which may have
raised; only then has the offset not been advanced past it. -/
structure HotLoopInv (address : ℕ) (raised : Option PyException)
    (state : HotLoopState spec.blockSizeBytes σ) : Prop where
  attempted : state.attempted = shardWrites spec address state.attempted.length
  block : state.mutator.WholeBlock address
    (blockAfter spec.seed spec.blockSizeBytes state.attempted.length)
  offset : raised = none → state.offset = writeOffset spec state.attempted.length

/-- The loop starts with no calls on a fresh mapping at the base offset. -/
theorem hotLoopInv_init (instanceState : σ) (address : ℕ) :
    HotLoopInv spec address none (hotLoopInit spec instanceState address) where
  attempted := rfl
  block := PySIMDPayloadMutator.fresh_wholeBlock spec.seed spec.blockSizeBytes address
  offset := by
    intro _
    simp [hotLoopInit, writeOffset]

/-- One execution of the loop body makes the next call of the sequence. -/
theorem hotLoopInv_body (hseed : spec.seed < 2 ^ 64) {address : ℕ}
    {state : HotLoopState spec.blockSizeBytes σ} (h : HotLoopInv spec address none state) :
    HotLoopInv spec address (hotLoopBody adapter spec descriptor env state).1
      (hotLoopBody adapter spec descriptor env state).2 := by
  obtain ⟨mutated, hmutated, hblock⟩ :=
    PySIMDPayloadMutator.applyEntropy_wholeBlock hseed h.block
  have hoffset := h.offset rfl
  have hcall : WriteCall.mk state.offset
        (mutated.contents (PySIMDPayloadMutator.wholeBuffer spec.blockSizeBytes address)) =
      shardWrite spec address state.attempted.length := by
    rw [PySIMDPayloadMutator.contents_wholeBuffer, hblock.buffer, hoffset, shardWrite]
  have hlog : state.attempted ++ [shardWrite spec address state.attempted.length] =
      shardWrites spec address (state.attempted.length + 1) := by
    rw [shardWrites_succ, ← h.attempted]
  simp only [hotLoopBody, hmutated, hcall, hlog]
  cases hwrite : adapter.write state.adapter descriptor state.offset
      (mutated.contents (PySIMDPayloadMutator.wholeBuffer spec.blockSizeBytes address)) with
  | mk answer next =>
    cases answer with
    | error e =>
      refine ⟨by simp, by simpa using hblock, ?_⟩
      intro hraised
      cases hraised
    | ok bytesWritten =>
      refine ⟨by simp, by simpa using hblock, ?_⟩
      intro _
      simp only [shardWrites_length, hoffset, writeOffset, Nat.succ_mul, Nat.add_assoc]

/-- The whole hot loop, batch after batch, keeps the calls in sequence. -/
theorem hotLoopInv_hotLoop (hseed : spec.seed < 2 ^ 64) (instanceState : σ)
    (address queueDepth : ℕ) :
    HotLoopInv spec address
      (hotLoop adapter spec descriptor env queueDepth (hotLoopInit spec instanceState address)).1
      (hotLoop adapter spec descriptor env queueDepth
        (hotLoopInit spec instanceState address)).2 := by
  apply repeatUntilRaise_spec (HotLoopInv spec address)
  · intro batch hbatch
    apply repeatUntilRaise_spec (HotLoopInv spec address) _ _ _ hbatch
    intro state hstate
    exact hotLoopInv_body adapter spec descriptor env hseed hstate
  · exact hotLoopInv_init spec instanceState address

/-- Cleanup makes no write call: the run's log is the loop's. -/
theorem runHotLoop_attempted (instanceState : σ) (address queueDepth : ℕ) :
    (runHotLoop adapter spec descriptor env instanceState address queueDepth).attempted =
      (hotLoop adapter spec descriptor env queueDepth
        (hotLoopInit spec instanceState address)).2.attempted := by
  simp only [runHotLoop]
  split <;> rfl

/-- Every engine run makes an initial segment of its shard's write calls. -/
theorem execute_attempted (hseed : spec.seed < 2 ^ 64) (targetUri : String) :
    ∃ address, (execute adapter spec env targetUri).attempted =
      shardWrites spec address (execute adapter spec env targetUri).attempted.length := by
  unfold execute
  split
  · exact ⟨0, rfl⟩
  · split
    · exact ⟨0, rfl⟩
    · split
      · exact ⟨0, rfl⟩
      · rename_i address _
        split
        · exact ⟨0, rfl⟩
        · refine ⟨address, ?_⟩
          rw [runHotLoop_attempted]
          exact (hotLoopInv_hotLoop adapter spec _ env hseed _ address _).attempted

end Loop

/-- One run of a worker engine: the adapter it builds and the surroundings it runs in. -/
structure WorkerRun where
  σ : Type
  adapter : TargetAdapter σ
  env : WorkerEnvironment
  targetUri : String

/-- The write calls a run makes for a shard. -/
def WorkerRun.writes (run : WorkerRun) (spec : WorkerShardSpec) : List WriteCall :=
  (execute run.adapter spec run.env run.targetUri).attempted

/-- A run against a target that accepts every write in full, in a fixed number of batches. -/
def acceptingRun (maxConcurrentOps laterBatches : ℕ) : WorkerRun where
  σ := Unit
  adapter := acceptingAdapter maxConcurrentOps
  env :=
    { mmap := fun _ => .ok 0x1000
      elapsedNs := fun _ => 1000
      laterBatches := laterBatches
      durationSec := 1 }
  targetUri := "file:///tmp/steve"

/-- Each call of a run is the shard's call of that number. -/
theorem WorkerRun.writes_getElem (run : WorkerRun) {spec : WorkerShardSpec}
    (hseed : spec.seed < 2 ^ 64) (t : ℕ) (ht : t < (run.writes spec).length) :
    ∃ address, (run.writes spec)[t] = shardWrite spec address t := by
  obtain ⟨address, h⟩ := execute_attempted run.adapter spec run.env hseed run.targetUri
  have hget : (run.writes spec)[t]? = (shardWrites spec address (run.writes spec).length)[t]? :=
    congrArg (·[t]?) h
  rw [List.getElem?_eq_getElem ht, List.getElem?_eq_getElem (by simpa using ht),
    Option.some.injEq] at hget
  exact ⟨address, by simpa [shardWrites] using hget⟩

end Steve.Orchestrator
