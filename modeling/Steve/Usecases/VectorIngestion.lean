import Mathlib.Algebra.Order.Group.Int
import Steve.Adapters.Factory
import Steve.Library.TakingTurns
import Steve.Usecases.WritePhase
import Steve.Validation.PercentileOrder

/-!
# The vector and object store simulation

Vectors are upserted page by page, then queried by gathered workers that share one collector,
and at last chunks are streamed to an object store. The queries are dealt out in batches with
the rest for the last worker; but a batch holds one query at least, so with fewer queries than
workers all workers but the last make one each, however many were asked for.
-/

namespace Steve.Usecases

open Steve.Library
open Steve.Adapters
open Steve.Payload
open Steve.Validation

/-- The arguments of a simulation, but for those that only the adapters' configurations hold. The
counts are natural numbers, so the negative integers that the source takes as well are left out;
the concurrency is any integer. -/
structure VectorParameters where
  vectorOps : ℕ
  vectorQueries : ℕ
  s3Chunks : ℕ
  queryConcurrency : ℤ

/-- What a simulation's surroundings decide. -/
structure VectorEnvironment where
  poolMmap : ℕ → Except PyException ℕ
  s3Mmap : ℕ → Except PyException ℕ
  upsertNs : ℕ → ℕ
  /-- the latency of each query -/
  queryNs : ℕ → ℕ
  s3Ns : ℕ → ℕ
  /-- the turns the event loop gives the query workers, before it lets each of them finish -/
  turns : List ℕ
  upsertSeconds : ℚ
  querySeconds : ℚ
  s3Seconds : ℚ

/-- The numbers a simulation prints, with the collectors behind them. -/
structure VectorReport where
  upserts : MetricCollector
  queries : MetricCollector
  s3 : MetricCollector
  upsertIops : ℚ
  upsertMb : ℚ
  queryQps : ℚ
  s3Gbps : ℚ
  uP50 : ℚ
  uP99 : ℚ
  qP50 : ℚ
  qP99 : ℚ
  sP99 : ℚ

/-- The address of the vector database. -/
def vectorUri : String := "vector://prod_embeddings_collection"

/-- The address of the object store. -/
def s3Uri : String := "s3://ai-model-checkpoints-us-east-1/llama3-70b-weights"

/-- The addresses' adapters. -/
example : AdapterFactory.getAdapterClass false vectorUri = .ok .vector ∧
    AdapterFactory.getAdapterClass false s3Uri = .ok .s3 := ⟨rfl, rfl⟩

section Program

variable (params : VectorParameters) (env : VectorEnvironment)

/-- The number of buffers that upserts and queries share. -/
def vectorBuffers : ℕ := (max 8 (params.queryConcurrency * 2)).toNat

/-- The loop of upserts. -/
def upsertPhase : WritePhase BufferPool MetricCollector where
  target := ⟨vectorUri, "prod_embeddings_collection"⟩
  offset := fun i => i * 4096
  payload := poolPayload
  record := recordStep env.upsertNs

/-- The loop of chunks. -/
def s3Phase : WritePhase BufferPool MetricCollector where
  target := ⟨s3Uri, "ai-model-checkpoints-us-east-1/llama3-70b-weights"⟩
  offset := fun i => i * 1048576
  payload := fun i pool => (pool.acquire i, pool)
  record := recordStep env.s3Ns

/-- The number of queries of a worker that is not the last. -/
def batchSize : ℕ := (max 1 ((params.vectorQueries : ℤ).fdiv params.queryConcurrency)).toNat

/-- The queries of a worker, if it has any. -/
def queryTask (c : ℕ) : Option (List ℕ) :=
  let cStart := c * batchSize params
  let cCount : ℤ := if (c : ℤ) < params.queryConcurrency - 1 then batchSize params
    else params.vectorQueries - cStart
  if 0 < cCount then some (List.range' cStart cCount.toNat) else none

/-- The queries of all workers that have any. -/
def queryTasks : List (List ℕ) :=
  (List.range params.queryConcurrency.toNat).filterMap (queryTask params)

/-- One query. -/
def runQuery (pool : BufferPool) (collector : MetricCollector) (idx : ℕ) :
    Except PyException MetricCollector :=
  match pool.acquire (idx % pool.bufferCount) with
  | .error e => .error e
  | .ok buf => .ok (recordStep env.queryNs idx (vectorRead buf) collector)

/-- The workers gathered, until all have finished. -/
def gatherQueries (pool : BufferPool) : Except PyException MetricCollector :=
  if params.queryConcurrency = 0 then
    .error ⟨.other "ZeroDivisionError", "integer division or modulo by zero"⟩
  else (takeTurns env.turns (queryTasks params)).foldlM (runQuery env pool) MetricCollector.init

/-- The chunks streamed to the object store. -/
def streamChunks : Except PyException MetricCollector :=
  match BufferPool.init env.s3Mmap 4 1048576 with
  | .error e => .error e
  | .ok pool =>
    match (s3Phase env).run s3TargetAdapter params.s3Chunks ⟨(), pool, MetricCollector.init⟩ with
    | (some e, _) => .error e
    | (none, final) => .ok final.recorded

/-- The report on the collectors. -/
def vectorReport (upserts queries s3 : MetricCollector) : VectorReport where
  upserts := upserts
  queries := queries
  s3 := s3
  upsertIops := params.vectorOps / atLeastNanosecond env.upsertSeconds
  upsertMb := upserts.totalBytes / (1024 * 1024 : ℕ)
  queryQps := params.vectorQueries / atLeastNanosecond env.querySeconds
  s3Gbps := ratePerSecond s3.totalBytes env.s3Seconds
  uP50 := upserts.percentileMs (50 / 100)
  uP99 := upserts.percentileMs (99 / 100)
  qP50 := queries.percentileMs (50 / 100)
  qP99 := queries.percentileMs (99 / 100)
  sP99 := s3.percentileMs (99 / 100)

/-- `run_ai_vector_s3_simulation`: its report or the exception that ended it. -/
def runAiVectorS3Simulation : Except PyException VectorReport :=
  match BufferPool.init env.poolMmap (vectorBuffers params) 4096 with
  | .error e => .error e
  | .ok pool =>
    match (upsertPhase env).run vectorTargetAdapter params.vectorOps
        ⟨(), pool, MetricCollector.init⟩ with
    | (some e, _) => .error e
    | (none, upserted) =>
      match gatherQueries params env pool with
      | .error e => .error e
      | .ok queries =>
        match streamChunks params env with
        | .error e => .error e
        | .ok s3 => .ok (vectorReport params env upserted.recorded queries s3)

end Program

section Queries

variable (params : VectorParameters) {env : VectorEnvironment}

/-- The number of queries that are made. -/
def queriesMade : ℕ :=
  if params.queryConcurrency < 0 then 0
  else max params.vectorQueries (params.queryConcurrency - 1).toNat

variable {others : ℕ}

/-- A batch is a worker's share, and one query at least. -/
theorem batchSize_eq (hothers : params.queryConcurrency = others + 1) :
    batchSize params = max 1 (params.vectorQueries / (others + 1)) := by
  have hshare : (params.vectorQueries : ℤ).fdiv (others + 1) =
      ((params.vectorQueries / (others + 1) : ℕ) : ℤ) := by
    rw [Int.fdiv_eq_ediv_of_nonneg _ (by omega)]
    rfl
  rw [batchSize, hothers, hshare]
  omega

/-- A worker that is not the last makes a batch. -/
theorem queryTask_other (hothers : params.queryConcurrency = others + 1) {c : ℕ}
    (hc : c < others) :
    queryTask params c = some (List.range' (c * batchSize params) (batchSize params)) := by
  have hbatch : 0 < batchSize params := by
    rw [batchSize_eq params hothers]
    omega
  simp only [queryTask, hothers]
  rw [if_pos (by omega), if_pos (by omega), Int.toNat_natCast]

/-- The last worker makes the rest, if there is one. -/
theorem queryTask_last (hothers : params.queryConcurrency = others + 1) :
    queryTask params others = if others * batchSize params < params.vectorQueries then
      some (List.range' (others * batchSize params)
        (params.vectorQueries - others * batchSize params)) else none := by
  have hlast : ¬ ((others : ℤ) < others + 1 - 1) := by omega
  simp only [queryTask, hothers]
  rw [if_neg hlast]
  by_cases hrest : others * batchSize params < params.vectorQueries
  · rw [if_pos (by omega), if_pos hrest]
    congr 2
    omega
  · rw [if_neg (by omega), if_neg hrest]

/-- Batches and rest make all queries, or one for each worker but the last. -/
theorem queryTasks_flatten_pos (hothers : params.queryConcurrency = others + 1) :
    (queryTasks params).flatten = List.range (max params.vectorQueries others) := by
  have hfirst : (List.range others).filterMap (queryTask params) =
      (List.range others).map fun c => List.range' (c * batchSize params) (batchSize params) := by
    rw [← List.filterMap_eq_map]
    apply List.filterMap_congr
    intro c hc
    exact queryTask_other params hothers (List.mem_range.mp hc)
  have hworkers : params.queryConcurrency.toNat = others + 1 := by omega
  rw [queryTasks, hworkers, List.range_succ, List.filterMap_append, List.flatten_append, hfirst,
    flatten_ranges, List.filterMap_cons, queryTask_last params hothers]
  have hbatch := batchSize_eq params hothers
  rcases Nat.lt_or_ge others params.vectorQueries with hmore | hfewer
  · -- every worker has a share, so the last one has some queries left
    have hshare : 0 < params.vectorQueries / (others + 1) :=
      Nat.div_pos (by omega) (Nat.succ_pos others)
    rw [max_eq_right hshare] at hbatch
    have hshares := Nat.div_mul_le_self params.vectorQueries (others + 1)
    rw [← hbatch, Nat.mul_succ, Nat.mul_comm] at hshares
    have hrest : others * batchSize params < params.vectorQueries := by omega
    have hqueries : List.range' 0 (others * batchSize params) ++
        List.range' (0 + 1 * (others * batchSize params))
          (params.vectorQueries - others * batchSize params) =
        List.range' 0 (others * batchSize params +
          (params.vectorQueries - others * batchSize params)) := List.range'_append
    rw [Nat.zero_add, Nat.one_mul, Nat.add_sub_cancel' hrest.le] at hqueries
    rw [if_pos hrest, max_eq_left hmore.le, List.range_eq_range', List.range_eq_range']
    simp only [List.filterMap_nil, List.flatten_singleton]
    exact hqueries
  · rw [Nat.div_eq_of_lt (Nat.lt_succ_of_le hfewer)] at hbatch
    have hone : others * batchSize params = others := by
      rw [hbatch]
      exact Nat.mul_one others
    rw [hone, if_neg (Nat.not_lt.mpr hfewer), max_eq_right hfewer]
    exact List.append_nil _

/-- All workers but the last make a batch each. -/
theorem queryTasks_flatten (hconcurrency : params.queryConcurrency ≠ 0) :
    (queryTasks params).flatten = List.range (queriesMade params) := by
  rcases lt_or_gt_of_ne hconcurrency with hnegative | hpositive
  · rw [queryTasks, Int.toNat_of_nonpos (by omega), queriesMade, if_pos hnegative]
    rfl
  · have hothers : params.queryConcurrency = (params.queryConcurrency - 1).toNat + 1 := by omega
    rw [queryTasks_flatten_pos params hothers, queriesMade, if_neg (by omega)]

/-- The queries record their latencies in the order in which they are made. -/
theorem runQuery_foldlM {pool : BufferPool} {bufferCount : ℕ}
    (hserves : pool.Serves bufferCount 4096) (order earlier : List ℕ) :
    order.foldlM (runQuery env pool) (historyOf 4096 earlier) =
      .ok (historyOf 4096 (earlier ++ order.map env.queryNs)) := by
  induction order generalizing earlier with
  | nil => rw [List.map_nil, List.append_nil]; rfl
  | cons idx rest ih =>
    obtain ⟨buffer, hbuffer, hzero⟩ := hserves.acquire (idx % pool.bufferCount)
    have hquery : runQuery env pool (historyOf 4096 earlier) idx =
        .ok (historyOf 4096 (earlier ++ [env.queryNs idx])) := by
      rw [historyOf_concat, runQuery, hbuffer]
      simp only [vectorRead, hzero.view, List.length_replicate]
      rfl
    rw [List.foldlM_cons, hquery, List.map_cons,
      List.append_cons earlier (env.queryNs idx) (rest.map env.queryNs)]
    exact ih (earlier ++ [env.queryNs idx])

/-- The gathered workers make all of their queries, in the order of their turns. -/
theorem gatherQueries_ok (hconcurrency : params.queryConcurrency ≠ 0) {pool : BufferPool}
    {bufferCount : ℕ} (hserves : pool.Serves bufferCount 4096) :
    ∃ order : List ℕ, order.Perm (List.range (queriesMade params)) ∧
      gatherQueries params env pool = .ok (historyOf 4096 (order.map env.queryNs)) := by
  have hperm := takeTurns_perm env.turns (queryTasks params)
  rw [queryTasks_flatten params hconcurrency] at hperm
  have hrun : (takeTurns env.turns (queryTasks params)).foldlM (runQuery env pool)
      (historyOf 4096 []) = _ :=
    runQuery_foldlM hserves (takeTurns env.turns (queryTasks params)) []
  rw [historyOf_nil, List.nil_append] at hrun
  refine ⟨_, hperm, ?_⟩
  rw [gatherQueries, if_neg hconcurrency, hrun]

end Queries

section Runs

variable (params : VectorParameters) (env : VectorEnvironment)

/-- A pool of pages supplies the upserts. -/
theorem upsertPhase_supplies (bufferCount : ℕ) :
    (upsertPhase env).Supplies 4096 params.vectorOps (fun _ => List.replicate 4096 0#8)
      fun _ pool => pool.Serves bufferCount 4096 := by
  apply pool_supplies (fun _ _ => rfl) (by decide) (by decide)
  intro i _
  exact Nat.mul_mod_left i 4096

/-- A pool of mebibyte buffers supplies the chunks. -/
theorem s3Phase_supplies (bufferCount : ℕ) :
    (s3Phase env).Supplies 1048576 params.s3Chunks (fun _ => List.replicate 1048576 0#8)
      fun _ pool => pool.Serves bufferCount 1048576 := by
  apply pool_supplies (fun _ _ => rfl) (by decide) (by decide)
  intro i _
  change i * (256 * 4096) % 4096 = 0
  rw [← Nat.mul_assoc, Nat.mul_mod_left]

/-- All chunks are streamed. -/
theorem streamChunks_ok (hmmap : BufferPool.MapsPages env.s3Mmap 4) :
    streamChunks params env = .ok (collected params.s3Chunks 1048576 env.s3Ns) := by
  obtain ⟨pool, hpool, hserves⟩ := BufferPool.init_serves (by decide) 1048576 hmmap
  let start : PhaseState Unit BufferPool MetricCollector := ⟨(), pool, MetricCollector.init⟩
  obtain ⟨final, hrun, hrecorded, -⟩ : ∃ final,
      (s3Phase env).run s3TargetAdapter params.s3Chunks start = (none, final) ∧
        final.recorded =
          (s3Phase env).recordedAfter 1048576 params.s3Chunks start.recorded ∧ _ :=
    WritePhase.run_acceptsPages s3TargetAdapter_acceptsPages (s3Phase_supplies params env 4) hserves
  have hcollected : final.recorded = collected params.s3Chunks 1048576 env.s3Ns :=
    hrecorded.trans (recordedAfter_init rfl 1048576 params.s3Chunks)
  simp only [streamChunks, hpool]
  rw [hrun]
  simp only [hcollected]

/-- What a simulation reports. -/
structure VectorsReported (report : VectorReport) : Prop where
  upserts : report.upserts = collected params.vectorOps 4096 env.upsertNs
  s3 : report.s3 = collected params.s3Chunks 1048576 env.s3Ns
  /-- whatever the turns, each query from the first on is made once -/
  queries : ∃ order : List ℕ, order.Perm (List.range (queriesMade params)) ∧
    report.queries = historyOf 4096 (order.map env.queryNs)
  /-- and the percentiles do not depend on the turns -/
  percentiles : ∀ p, report.queries.percentileMs p =
    (historyOf 4096 ((List.range (queriesMade params)).map env.queryNs)).percentileMs p
  /-- the printed rate is that of the queries asked for -/
  rate : report.queryQps = params.vectorQueries / atLeastNanosecond env.querySeconds
  /-- as many are made unless there are fewer than workers besides the last -/
  asked : report.queries.totalOps = params.vectorQueries ↔
    (0 ≤ params.queryConcurrency ∧ params.queryConcurrency ≤ params.vectorQueries + 1) ∨
      params.vectorQueries = 0 ∧ params.queryConcurrency < 0

/-- A simulation with any workers, or with a negative number of them, ends with its report. -/
theorem runAiVectorS3Simulation_reports (hconcurrency : params.queryConcurrency ≠ 0)
    (hpool : BufferPool.MapsPages env.poolMmap (vectorBuffers params))
    (hs3 : BufferPool.MapsPages env.s3Mmap 4) :
    ∃ report, runAiVectorS3Simulation params env = .ok report ∧
      VectorsReported params env report := by
  have hbuffers : 0 < vectorBuffers params := by
    rw [vectorBuffers]
    omega
  obtain ⟨pool, hinit, hserves⟩ := BufferPool.init_serves hbuffers 4096 hpool
  let start : PhaseState Unit BufferPool MetricCollector := ⟨(), pool, MetricCollector.init⟩
  obtain ⟨upserted, hupserts, hrecorded, -⟩ : ∃ final,
      (upsertPhase env).run vectorTargetAdapter params.vectorOps start = (none, final) ∧
        final.recorded =
          (upsertPhase env).recordedAfter 4096 params.vectorOps start.recorded ∧ _ :=
    WritePhase.run_acceptsPages vectorTargetAdapter_acceptsPages
      (upsertPhase_supplies params env (vectorBuffers params)) hserves
  have hcollected : upserted.recorded = collected params.vectorOps 4096 env.upsertNs :=
    hrecorded.trans (recordedAfter_init rfl 4096 params.vectorOps)
  obtain ⟨order, hperm, hqueries⟩ : ∃ order : List ℕ,
      order.Perm (List.range (queriesMade params)) ∧
        gatherQueries params env pool = .ok (historyOf 4096 (order.map env.queryNs)) :=
    gatherQueries_ok params hconcurrency hserves
  have hs3 := streamChunks_ok params env hs3
  refine ⟨vectorReport params env (collected params.vectorOps 4096 env.upsertNs)
    (historyOf 4096 (order.map env.queryNs)) (collected params.s3Chunks 1048576 env.s3Ns),
    ?_, rfl, rfl, ⟨order, hperm, rfl⟩, ?_, rfl, ?_⟩
  · simp only [runAiVectorS3Simulation, hinit]
    rw [hupserts]
    simp only [hqueries, hs3, hcollected]
  · intro p
    exact MetricCollector.percentileMs_perm (hperm.map env.queryNs) p
  · change (historyOf 4096 (order.map env.queryNs)).totalOps = _ ↔ _
    rw [(historyOf_totals 4096 _).1, List.length_map, hperm.length_eq, List.length_range,
      queriesMade]
    split <;> omega

end Runs

/-- Two queries for eight workers, seven of which make one each. -/
def fewQueries : VectorParameters := ⟨3, 2, 1, 8⟩

/-- Mappings at page boundaries, and turns that begin with the second worker. -/
def pageVectors : VectorEnvironment where
  poolMmap := fun number => .ok (0x400000 + number * 4096)
  s3Mmap := fun number => .ok (0x800000 + number * 1048576)
  upsertNs := fun step => 1000 + step
  queryNs := fun idx => 500 + idx
  s3Ns := fun _ => 90000
  turns := [1, 0]
  upsertSeconds := 1
  querySeconds := 1
  s3Seconds := 1

/-- The simulation with few queries ends with its report. -/
theorem runAiVectorS3Simulation_reports_few :
    ∃ report, runAiVectorS3Simulation fewQueries pageVectors = .ok report ∧
      VectorsReported fewQueries pageVectors report := by
  apply runAiVectorS3Simulation_reports fewQueries pageVectors (by decide)
  · intro number _
    refine ⟨_, rfl, ?_⟩
    omega
  · intro number _
    refine ⟨_, rfl, ?_⟩
    omega

end Steve.Usecases
