import Steve.Usecases.SharedLoops
import Steve.Validation.MergedHistory

/-!
# The micro-burst simulation

A steady loop of page writes comes first, then cycles of unpaced bursts over the same pages.
Every operation is recorded twice: by the collector of its kind, and by a collector of all
operations. The latter holds the steady latencies and then those of the bursts, so each of its
percentiles lies above the smaller one of the two kinds.
-/

namespace Steve.Usecases

open Steve.Library
open Steve.Adapters
open Steve.Payload
open Steve.Validation

/-- The arguments of a simulation; the counts are natural numbers, so the negative integers
that the source takes as well are left out. -/
structure MicroburstParameters where
  steadyOps : ℕ
  burstCycles : ℕ
  burstIntensity : ℕ
  targetUri : String

/-- What a simulation's surroundings decide. -/
structure MicroburstEnvironment where
  poolMmap : ℕ → Except PyException ℕ
  steadyNs : ℕ → ℕ
  /-- the latencies of a cycle's writes -/
  burstNs : ℕ → ℕ → ℕ

/-- The collectors of a simulation. -/
@[ext]
structure BurstCollectors where
  steady : MetricCollector
  burst : MetricCollector
  combined : MetricCollector

/-- The numbers a simulation prints, with the collectors behind them. -/
structure MicroburstReport where
  collectors : BurstCollectors
  p50S : ℚ
  p99S : ℚ
  p999S : ℚ
  p50C : ℚ
  p90C : ℚ
  p99C : ℚ
  p999C : ℚ
  degradFactor : ℚ
  /-- the nonempty buckets with their counts -/
  activeBuckets : List (ℕ × ℕ)

/-- Record a steady operation. -/
def recordSteady (latencyNs : ℕ → ℕ) (step written : ℕ) (collectors : BurstCollectors) :
    BurstCollectors :=
  { collectors with
    steady := recordStep latencyNs step written collectors.steady
    combined := recordStep latencyNs step written collectors.combined }

/-- Record an operation of a burst. -/
def recordBurst (latencyNs : ℕ → ℕ) (step written : ℕ) (collectors : BurstCollectors) :
    BurstCollectors :=
  { collectors with
    burst := recordStep latencyNs step written collectors.burst
    combined := recordStep latencyNs step written collectors.combined }

section Program

variable {σ : Type} (adapter : TargetAdapter σ) (params : MicroburstParameters)
  (env : MicroburstEnvironment)

/-- The resource that all loops write. -/
def MicroburstParameters.target : TargetDescriptor := ⟨params.targetUri, "microburst_target.dat"⟩

/-- The steady loop. -/
def steadyPhase : WritePhase BufferPool BurstCollectors :=
  pageRingPhase params.target (recordSteady env.steadyNs)

/-- The loop of a burst. -/
def burstPhase (cycle : ℕ) : WritePhase BufferPool BurstCollectors :=
  pageRingPhase params.target (recordBurst (env.burstNs cycle))

/-- One cycle of the burst loop. -/
def burstCycle (cycle : ℕ) (state : PhaseState σ BufferPool BurstCollectors) :
    Option PyException × PhaseState σ BufferPool BurstCollectors :=
  (burstPhase params env cycle).run adapter params.burstIntensity state

/-- The report on the collectors. -/
def microburstReport (collectors : BurstCollectors) : MicroburstReport where
  collectors := collectors
  p50S := collectors.steady.percentileMs (50 / 100)
  p99S := collectors.steady.percentileMs (99 / 100)
  p999S := collectors.steady.percentileMs (999 / 1000)
  p50C := collectors.combined.percentileMs (50 / 100)
  p90C := collectors.combined.percentileMs (90 / 100)
  p99C := collectors.combined.percentileMs (99 / 100)
  p999C := collectors.combined.percentileMs (999 / 1000)
  degradFactor := collectors.combined.percentileMs (999 / 1000) /
    max (collectors.steady.percentileMs (50 / 100)) (1 / 1000)
  activeBuckets := (collectors.combined.buckets.zipIdx.filter fun entry => 0 < entry.1).map
    fun entry => (entry.2, entry.1)

/-- The loops on an initialized adapter. -/
def microburstPhases (state : σ) : Except PyException MicroburstReport × σ :=
  match BufferPool.init env.poolMmap 8 4096 with
  | .error e => (.error e, state)
  | .ok pool =>
    match (steadyPhase params env).run adapter params.steadyOps
        ⟨state, pool, ⟨.init, .init, .init⟩⟩ with
    | (some e, final) => (.error e, final.adapter)
    | (none, steady) =>
      match forRange (burstCycle adapter params env) params.burstCycles steady with
      | (some e, final) => (.error e, final.adapter)
      | (none, final) => (.ok (microburstReport final.recorded), final.adapter)

/-- `run_microburst_simulation` on the adapter of its target URI: its report or the exception
that ended it, and its adapter if it was built. -/
def runMicroburstSimulation : Except PyException MicroburstReport × Option σ :=
  match adapter.construct with
  | .error e => (.error e, none)
  | .ok state =>
    match adapter.initializeAdapter state with
    | (.error e, state) => (.error e, some state)
    | (.ok (), state) =>
      let (outcome, final) := microburstPhases adapter params env state
      (outcome, some final)

end Program

section Histories

variable (params : MicroburstParameters) (env : MicroburstEnvironment)

/-- The latencies of the steady loop. -/
def steadyLatencies : List ℕ := (List.range params.steadyOps).map env.steadyNs

/-- The latencies of the first cycles. -/
def burstLatencies (cycles : ℕ) : List ℕ :=
  (List.range cycles).flatMap fun cycle =>
    (List.range params.burstIntensity).map (env.burstNs cycle)

/-- The collectors after the steady loop and some cycles. -/
def collectorsAfter (cycles : ℕ) : BurstCollectors where
  steady := historyOf 4096 (steadyLatencies params env)
  burst := historyOf 4096 (burstLatencies params env cycles)
  combined := historyOf 4096 (steadyLatencies params env ++ burstLatencies params env cycles)

/-- The pages of the region that the steady loop and some cycles have reached. -/
def pagesReached (cycles : ℕ) : ℕ :=
  min (max params.steadyOps (if cycles = 0 then 0 else params.burstIntensity)) 2560

/-- The steady loop records into its own collector and into the one of all operations. -/
theorem steadyPhase_recordedAfter :
    (steadyPhase params env).recordedAfter 4096 params.steadyOps ⟨.init, .init, .init⟩ =
      collectorsAfter params env 0 := by
  simp only [collectorsAfter, burstLatencies, List.range_zero, List.flatMap_nil, List.append_nil,
    ← historyOf_nil 4096]
  apply BurstCollectors.ext
  · change _ = historyOf 4096 ([] ++ (List.range params.steadyOps).map env.steadyNs)
    apply recordedAfter_part BurstCollectors.steady
    · exact fun _ _ _ => rfl
    · rfl
  · exact recordedAfter_kept BurstCollectors.burst (fun _ _ _ => rfl) 4096 params.steadyOps _
  · change _ = historyOf 4096 ([] ++ (List.range params.steadyOps).map env.steadyNs)
    apply recordedAfter_part BurstCollectors.combined
    · exact fun _ _ _ => rfl
    · rfl

/-- A burst records into its own collector and into the one of all operations. -/
theorem burstPhase_recordedAfter (cycle : ℕ) :
    (burstPhase params env cycle).recordedAfter 4096 params.burstIntensity
        (collectorsAfter params env cycle) = collectorsAfter params env (cycle + 1) := by
  have hmore : burstLatencies params env (cycle + 1) = burstLatencies params env cycle ++
      (List.range params.burstIntensity).map (env.burstNs cycle) := by
    rw [burstLatencies, List.range_succ, List.flatMap_append, List.flatMap_singleton]
    rfl
  apply BurstCollectors.ext
  · exact recordedAfter_kept BurstCollectors.steady (fun _ _ _ => rfl) 4096 params.burstIntensity _
  · simp only [collectorsAfter, hmore]
    exact recordedAfter_part BurstCollectors.burst (fun _ _ _ => rfl) 4096 params.burstIntensity
      rfl
  · simp only [collectorsAfter, hmore, ← List.append_assoc]
    exact recordedAfter_part BurstCollectors.combined (fun _ _ _ => rfl) 4096
      params.burstIntensity rfl

/-- The printed buckets hold every operation. -/
theorem activeBuckets_sum (buckets : List ℕ) (start : ℕ) :
    (((buckets.zipIdx start).filter fun entry => 0 < entry.1).map Prod.fst).sum = buckets.sum := by
  induction buckets generalizing start with
  | nil => rfl
  | cons count rest ih =>
    rw [List.zipIdx_cons, List.filter_cons, List.sum_cons, ← ih (start + 1)]
    split
    · rfl
    next hempty =>
      have hzero : count = 0 :=
        Nat.eq_zero_of_not_pos (of_decide_eq_false (Bool.eq_false_iff.mpr hempty))
      rw [hzero, Nat.zero_add]

end Histories

section Runs

variable {ω F : Type} [DecidableEq F] {system : PosixSystem ω}
  {semantics : FileSemantics F system.toOperatingSystem} {paths : Set String}
  {params : MicroburstParameters} {env : MicroburstEnvironment}

/-- What the steady loop and some cycles leave. -/
structure Burst (semantics : FileSemantics F system.toOperatingSystem) (paths : Set String)
    (params : MicroburstParameters) (env : MicroburstEnvironment) (store : String → List Byte)
    (cycles : ℕ) (state : PhaseState (PosixDirectIOAdapter ω) BufferPool BurstCollectors) :
    Prop where
  serves : state.source.Serves 8 4096
  recorded : state.recorded = collectorsAfter params env cycles
  file : ∃ after, PosixRepresents semantics paths state.adapter after ∧
    ZeroedPages (pagesReached params cycles) (store params.target.resourcePath)
      (after params.target.resourcePath) ∧ OthersKept params.target store after

/-- The steady loop makes all its writes. -/
theorem steadyPhase_run (hreliable : semantics.Reliable paths)
    (hdistinct : Set.InjOn semantics.fileOf paths) (hpath : params.target.resourcePath ∈ paths)
    (os : ω) {adapter : PosixDirectIOAdapter ω} {store : String → List Byte}
    (hstore : PosixRepresents semantics paths adapter store) {pool : BufferPool}
    (hserves : pool.Serves 8 4096) :
    ∃ final, (steadyPhase params env).run (posixTargetAdapter system os) params.steadyOps
        ⟨adapter, pool, ⟨.init, .init, .init⟩⟩ = (none, final) ∧
      Burst semantics paths params env store 0 final := by
  let start : PhaseState (PosixDirectIOAdapter ω) BufferPool BurstCollectors :=
    ⟨adapter, pool, ⟨.init, .init, .init⟩⟩
  have hstart : start.source.Serves 8 4096 := hserves
  obtain ⟨final, after, hrun, hafter, hzeroed, hkept, hready, hrecorded⟩ :=
    pageRing_run hreliable hdistinct hpath os (recordSteady env.steadyNs) params.steadyOps hstore
      hstart
  refine ⟨final, hrun, hready, hrecorded.trans (steadyPhase_recordedAfter params env), after,
    hafter, ?_, hkept⟩
  rw [pagesReached, if_pos rfl, Nat.max_zero]
  exact hzeroed

/-- A cycle makes all its writes. -/
theorem burstCycle_run (hreliable : semantics.Reliable paths)
    (hdistinct : Set.InjOn semantics.fileOf paths) (hpath : params.target.resourcePath ∈ paths)
    (os : ω) {store : String → List Byte} (cycle : ℕ)
    {state : PhaseState (PosixDirectIOAdapter ω) BufferPool BurstCollectors}
    (h : Burst semantics paths params env store cycle state) :
    ∃ next, burstCycle (posixTargetAdapter system os) params env cycle state = (none, next) ∧
      Burst semantics paths params env store (cycle + 1) next := by
  obtain ⟨middle, hmiddle, hzeroed, hkept⟩ := h.file
  obtain ⟨next, after, hrun, hafter, hagain, hothers, hready, hrecorded⟩ :=
    pageRing_run hreliable hdistinct hpath os (recordBurst (env.burstNs cycle))
      params.burstIntensity hmiddle h.serves
  have hreached : max (pagesReached params cycle) (min params.burstIntensity 2560) =
      pagesReached params (cycle + 1) := by
    simp only [pagesReached, Nat.add_one_ne_zero, if_false]
    split <;> omega
  refine ⟨next, hrun, hready, ?_, after, hafter, ?_, ?_⟩
  · rw [hrecorded, h.recorded]
    exact burstPhase_recordedAfter params env cycle
  · rw [← hreached]
    exact hzeroed.trans hagain
  · intro path hpath
    exact (hothers path hpath).trans (hkept path hpath)

/-- What a simulation leaves on disk and in its report. -/
structure BurstsReported (semantics : FileSemantics F system.toOperatingSystem)
    (paths : Set String) (os : ω) (params : MicroburstParameters) (env : MicroburstEnvironment)
    (report : MicroburstReport) (final : PosixDirectIOAdapter ω) : Prop where
  file : ZeroedPages (pagesReached params params.burstCycles)
    (storeOf semantics os params.target.resourcePath)
    (storeOf semantics final.os params.target.resourcePath)
  others : ∀ path ∈ paths, path ≠ params.target.resourcePath →
    storeOf semantics final.os path = storeOf semantics os path
  reported : report = microburstReport (collectorsAfter params env params.burstCycles)
  /-- the printed buckets hold every operation -/
  buckets : (report.activeBuckets.map Prod.snd).sum =
    params.steadyOps + params.burstCycles * params.burstIntensity
  /-- a percentile of all operations lies above the smaller one of the two kinds -/
  above : ∀ p, min (report.collectors.steady.percentileMs p)
    (report.collectors.burst.percentileMs p) ≤ report.collectors.combined.percentileMs p
  /-- and below the larger one, where rounding down loses no rank -/
  below : ∀ p, report.collectors.combined.targetCount p ≤
      report.collectors.steady.targetCount p + report.collectors.burst.targetCount p →
    report.collectors.combined.percentileMs p ≤
      max (report.collectors.steady.percentileMs p) (report.collectors.burst.percentileMs p)

/-- The printed buckets of the collectors hold every operation. -/
theorem microburstReport_buckets (params : MicroburstParameters) (env : MicroburstEnvironment)
    (cycles : ℕ) :
    ((microburstReport (collectorsAfter params env cycles)).activeBuckets.map Prod.snd).sum =
      params.steadyOps + cycles * params.burstIntensity := by
  have hbursts : (burstLatencies params env cycles).length = cycles * params.burstIntensity := by
    simp only [burstLatencies, List.length_flatMap, List.length_map, List.length_range,
      List.map_const', List.sum_replicate_nat]
  simp only [microburstReport, List.map_map, Function.comp_def]
  refine (activeBuckets_sum _ 0).trans ?_
  change (MetricCollector.init.recordAll _).buckets.sum = _
  rw [MetricCollector.recordAll_init_sum, List.length_append, hbursts, steadyLatencies,
    List.length_map, List.length_range]

/-- On a reliable file system a simulation ends with its report on all its loops, and its file
is zeroed as far as the longest of them reached. -/
theorem runMicroburstSimulation_reports (semantics : FileSemantics F system.toOperatingSystem)
    (hreliable : semantics.Reliable paths) (hdistinct : Set.InjOn semantics.fileOf paths)
    (params : MicroburstParameters) (hpath : params.target.resourcePath ∈ paths) (os : ω)
    (env : MicroburstEnvironment) (hmmap : BufferPool.MapsPages env.poolMmap 8) :
    ∃ report final, runMicroburstSimulation (posixTargetAdapter system os) params env =
        (.ok report, some final) ∧
      BurstsReported semantics paths os params env report final := by
  have hempty : PosixRepresents semantics paths (PosixDirectIOAdapter.init os)
      (storeOf semantics os) := ⟨represents_empty fun _ _ => rfl, rfl⟩
  obtain ⟨pool, hpool, hserves⟩ := BufferPool.init_serves (by decide) 4096 hmmap
  obtain ⟨steady, hsteady, hstart⟩ : ∃ steady,
      (steadyPhase params env).run (posixTargetAdapter system os) params.steadyOps
          ⟨PosixDirectIOAdapter.init os, pool, ⟨.init, .init, .init⟩⟩ = (none, steady) ∧
        Burst semantics paths params env (storeOf semantics os) 0 steady :=
    steadyPhase_run hreliable hdistinct hpath os hempty hserves
  obtain ⟨final, hcycles, hfinal⟩ : ∃ final,
      forRange (burstCycle (posixTargetAdapter system os) params env) params.burstCycles steady =
          (none, final) ∧
        Burst semantics paths params env (storeOf semantics os) params.burstCycles final :=
    forRange_spec (Burst semantics paths params env (storeOf semantics os))
      (fun cycle _ _ h => burstCycle_run hreliable hdistinct hpath os cycle h) hstart
  obtain ⟨after, hafter, hzeroed, hkept⟩ := hfinal.file
  have hphases : microburstPhases (posixTargetAdapter system os) params env
      (PosixDirectIOAdapter.init os) =
        (.ok (microburstReport (collectorsAfter params env params.burstCycles)),
          final.adapter) := by
    simp only [microburstPhases, hpool, hsteady, hcycles, hfinal.recorded]
  have hcontent : ∀ path ∈ paths, storeOf semantics final.adapter.os path = after path :=
    hafter.represents.content
  have hpercentiles (p : ℚ) := MetricCollector.percentileMs_append (steadyLatencies params env)
    (burstLatencies params env params.burstCycles) p
  refine ⟨_, final.adapter, ?_, ?_, ?_, rfl, microburstReport_buckets params env _,
    fun p => (hpercentiles p).1, fun p => (hpercentiles p).2⟩
  · change ((microburstPhases _ _ _ _).1, some (microburstPhases _ _ _ _).2) = _
    rw [hphases]
  · rw [hcontent _ hpath]
    exact hzeroed
  · intro path hmem hne
    rw [hcontent path hmem]
    exact hkept path hne

end Runs

/-- A small simulation. -/
def smallBursts : MicroburstParameters := ⟨2, 2, 3, "posix:///tmp/microburst_target.dat"⟩

/-- Its surroundings. -/
def pageBursts : MicroburstEnvironment :=
  ⟨fun number => .ok (0x400000 + number * 4096), fun _ => 1000, fun cycle _ => 5000 + cycle⟩

/-- The small simulation ends on an empty disk. -/
theorem runMicroburstSimulation_reports_small :
    ∃ report final,
      runMicroburstSimulation (posixTargetAdapter (diskSystem fun _ length => length) Disk.empty)
          smallBursts pageBursts = (.ok report, some final) ∧
        BurstsReported (diskSemantics fun _ length => length) Set.univ Disk.empty smallBursts
          pageBursts report final := by
  apply runMicroburstSimulation_reports (diskSemantics fun _ length => length)
    diskSemantics_reliable Function.injective_id.injOn smallBursts trivial
  intro number _
  refine ⟨_, rfl, ?_⟩
  omega

end Steve.Usecases
