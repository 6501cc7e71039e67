import Steve.Orchestrator.WorkerWrites

/-!
# The telemetry of a worker run

The collector a run ends with is the one fed the latencies measured around its successful
writes, in order, apart from the byte count. So the percentiles a worker reports are those
of its own history.
-/

namespace Steve.Orchestrator

open Steve.Library
open Steve.Adapters
open Steve.Payload
open Steve.Validation

/-- The latencies of a run's first `count` writes. -/
def measuredLatencies (env : WorkerEnvironment) (count : ℕ) : List ℕ :=
  (List.range count).map env.elapsedNs

/-- One more write extends the history by its latency. -/
theorem measuredLatencies_succ (env : WorkerEnvironment) (count : ℕ) :
    measuredLatencies env (count + 1) = measuredLatencies env count ++ [env.elapsedNs count] := by
  simp [measuredLatencies, List.range_succ]

/-- A collector holds a history when it differs from the one fed that history in the byte
count at most. -/
def HoldsHistory (collector : MetricCollector) (latencies : List ℕ) : Prop :=
  ∃ byteCount, collector =
    { MetricCollector.init.recordAll latencies with totalBytes := byteCount }

/-- Recording a latency and some bytes extends the history held. -/
theorem holds_record {collector : MetricCollector} {latencies : List ℕ}
    (h : HoldsHistory collector latencies) (latencyNs byteCount : ℕ) :
    HoldsHistory ((collector.recordLatency latencyNs).recordBytes byteCount)
      (latencies ++ [latencyNs]) := by
  obtain ⟨before, rfl⟩ := h
  refine ⟨before + byteCount, ?_⟩
  rw [MetricCollector.recordAll, MetricCollector.recordAll, List.foldl_append]
  rfl

/-- A collector's percentiles are those of the history it holds. -/
theorem percentileMs_of_holds {collector : MetricCollector} {latencies : List ℕ}
    (h : HoldsHistory collector latencies) (p : ℚ) :
    collector.percentileMs p = (MetricCollector.init.recordAll latencies).percentileMs p := by
  obtain ⟨byteCount, rfl⟩ := h
  rfl

/-- A collector counts the history it holds. -/
theorem totalOps_of_holds {collector : MetricCollector} {latencies : List ℕ}
    (h : HoldsHistory collector latencies) : collector.totalOps = latencies.length := by
  obtain ⟨byteCount, rfl⟩ := h
  simp only [MetricCollector.recordAll_totalOps, MetricCollector.init, Nat.zero_add]

section Loop

variable {σ : Type} (adapter : TargetAdapter σ) (spec : WorkerShardSpec)
  (descriptor : TargetDescriptor) (env : WorkerEnvironment)

/-- The collector holds the latencies of the successful writes; before an exception these
are all the writes made. -/
def CollectorInv (raised : Option PyException) (state : HotLoopState spec.blockSizeBytes σ) :
    Prop :=
  ∃ count, HoldsHistory state.collector (measuredLatencies env count) ∧
    (raised = none → count = state.attempted.length)

/-- One execution of the loop body records the latency of a successful write. -/
theorem collectorInv_body {state : HotLoopState spec.blockSizeBytes σ}
    (h : CollectorInv spec env none state) :
    CollectorInv spec env (hotLoopBody adapter spec descriptor env state).1
      (hotLoopBody adapter spec descriptor env state).2 := by
  obtain ⟨count, hholds, hcount⟩ := h
  have hcount := hcount rfl
  unfold hotLoopBody
  split
  · exact ⟨count, hholds, fun hraised => by cases hraised⟩
  · simp only
    split
    · exact ⟨count, hholds, fun hraised => by cases hraised⟩
    · refine ⟨count + 1, ?_, fun _ => ?_⟩
      · rw [measuredLatencies_succ, hcount]
        exact holds_record (hcount ▸ hholds) _ _
      · simp [hcount]

/-- The whole hot loop keeps the collector in step with its writes. -/
theorem collectorInv_hotLoop (instanceState : σ) (address queueDepth : ℕ) :
    CollectorInv spec env
      (hotLoop adapter spec descriptor env queueDepth (hotLoopInit spec instanceState address)).1
      (hotLoop adapter spec descriptor env queueDepth
        (hotLoopInit spec instanceState address)).2 := by
  apply repeatUntilRaise_spec (CollectorInv spec env)
  · intro batch hbatch
    apply repeatUntilRaise_spec (CollectorInv spec env) _ _ _ hbatch
    intro state hstate
    exact collectorInv_body adapter spec descriptor env hstate
  · exact ⟨0, ⟨0, rfl⟩, fun _ => rfl⟩

/-- The percentiles a run reports are those of the latencies of its counted operations. -/
theorem execute_p99Ms {targetUri : String} {result : WorkerTelemetryResult}
    (h : (execute adapter spec env targetUri).outcome = .ok result) :
    result.p99Ms = (MetricCollector.init.recordAll
      (measuredLatencies env result.totalOps)).p99LatencyMs := by
  unfold execute at h
  split at h
  · cases h
  · split at h
    · cases h
    · split at h
      · cases h
      · split at h
        · cases h
        · rename_i ready _ _ address _ _ capabilities _
          obtain ⟨count, hholds, -⟩ := collectorInv_hotLoop adapter spec
            (workerDescriptor spec targetUri) env ready address capabilities.maxConcurrentOps
          simp only [runHotLoop] at h
          split at h
          · cases h
          · cases h
            have hops := totalOps_of_holds hholds
            rw [measuredLatencies, List.length_map, List.length_range] at hops
            simp only [workerResult, hops]
            exact percentileMs_of_holds hholds _

end Loop

end Steve.Orchestrator
