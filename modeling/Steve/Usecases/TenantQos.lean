import Steve.Usecases.Gather
import Steve.Usecases.SharedLoops
import Steve.Validation.PercentileRank

/-!
# Two tenants on one adapter

A tenant with small page writes and one with bulk blocks share an adapter, first apart and then
gathered, with the second one unthrottled and throttled. Pacing only decides in which order
the event loop gives turns. Whatever that order is, each tenant's collector counts the
tenant's own writes, and each tenant's file holds the tenant's own blocks, which every phase
writes again over those of the last.
-/

namespace Steve.Usecases

open Steve.Library
open Steve.Adapters
open Steve.Payload
open Steve.Validation

/-- The latency-critical tenant and its neighbor. -/
inductive Tenant
  | oltp
  | batch
  deriving DecidableEq

/-- The arguments of a simulation; the counts are natural numbers, so the negative integers
that the source takes as well are left out. -/
structure TenantParameters where
  tenantAOps : ℕ
  tenantBMb : ℕ
  slaThresholdMs : ℚ
  qosThrottle : Bool
  targetUri : String

/-- What the surroundings of one phase with both tenants decide. -/
structure ContentionEnvironment where
  poolMmap : ℕ → Except PyException ℕ
  mutatorMmap : Except PyException ℕ
  oltpNs : ℕ → ℕ
  batchNs : ℕ → ℕ
  /-- the turns the event loop gives, before it lets each tenant finish -/
  turns : List Tenant
  seconds : ℚ

/-- What a simulation's surroundings decide. -/
structure TenantEnvironment where
  baselineMmap : ℕ → Except PyException ℕ
  baselineNs : ℕ → ℕ
  contended : ContentionEnvironment
  qos : ContentionEnvironment

/-- The numbers a simulation prints, with the collectors behind them. -/
structure TenantReport where
  baseline : MetricCollector
  contended : MetricCollector × MetricCollector
  qos : Option (MetricCollector × MetricCollector)
  contendedP50 : ℚ
  jitterRatio : ℚ
  unthrottledBGbps : ℚ
  qosP99 : ℚ
  qosBGbps : ℚ
  isSlaMet : Bool

/-- What a tenant's payloads come from. -/
def TenantSource : Tenant → Type
  | .oltp => BufferPool
  | .batch => PySIMDPayloadMutator bulkBlockSize

/-- The path of a tenant's file. -/
def tenantPath : Tenant → String
  | .oltp => "tenant_a_oltp.dat"
  | .batch => "tenant_b_batch.dat"

section Program

variable {σ : Type} (adapter : TargetAdapter σ) (params : TenantParameters)

/-- The loop of `run_tenant_a_oltp`. -/
def oltpPhase (latencyNs : ℕ → ℕ) : WritePhase BufferPool MetricCollector :=
  pageRingPhase ⟨params.targetUri, tenantPath .oltp⟩ (recordStep latencyNs)

/-- The loop of `run_tenant_b_noisy_neighbor`. -/
def batchPhase (latencyNs : ℕ → ℕ) :
    WritePhase (PySIMDPayloadMutator bulkBlockSize) MetricCollector :=
  bulkPhase ⟨params.targetUri, tenantPath .batch⟩ latencyNs

/-- `run_tenant_a_oltp` on its own. -/
def runTenantAOltp (mmap : ℕ → Except PyException ℕ) (latencyNs : ℕ → ℕ) (state : σ) :
    Except PyException MetricCollector × σ :=
  match BufferPool.init mmap 4 4096 with
  | .error e => (.error e, state)
  | .ok pool =>
    match (oltpPhase params latencyNs).run adapter params.tenantAOps
        ⟨state, pool, MetricCollector.init⟩ with
    | (some e, final) => (.error e, final.adapter)
    | (none, final) => (.ok final.recorded, final.adapter)

/-- Both tenants' loops, as tasks. -/
def tenantTasks (env : ContentionEnvironment) :
    ∀ tenant, GatherTask (TenantSource tenant) MetricCollector
  | .oltp => ⟨oltpPhase params env.oltpNs, params.tenantAOps⟩
  | .batch => ⟨batchPhase params env.batchNs, params.tenantBMb⟩

/-- Where both tenants' payloads come from at first. -/
def tenantSource (pool : BufferPool) (address : ℕ) : ∀ tenant, TenantSource tenant
  | .oltp => pool
  | .batch => .fresh bulkBlockSize address

/-- Both tenants gathered, until both have finished. -/
def contend (env : ContentionEnvironment) (state : σ) :
    Except PyException (MetricCollector × MetricCollector) × σ :=
  match BufferPool.init env.poolMmap 4 4096, env.mutatorMmap with
  | .error e, _ => (.error e, state)
  | .ok _, .error e => (.error e, state)
  | .ok pool, .ok address =>
    let start : GatherState σ TenantSource fun _ => MetricCollector :=
      ⟨state, fun tenant => .init (tenantSource pool address tenant) MetricCollector.init, none⟩
    let final := start.run (tenantTasks params env) adapter (env.turns ++
      (List.replicate params.tenantAOps .oltp ++ List.replicate params.tenantBMb .batch))
    match final.raised with
    | some e => (.error e, final.adapter)
    | none => (.ok ((final.task .oltp).recorded, (final.task .batch).recorded), final.adapter)

/-- The report on the collectors of all phases. -/
def tenantReport (env : TenantEnvironment) (baseline : MetricCollector)
    (contended : MetricCollector × MetricCollector)
    (qos : Option (MetricCollector × MetricCollector)) : TenantReport :=
  let contendedP99 := contended.1.percentileMs (99 / 100)
  let unthrottledBGbps := ratePerSecond contended.2.totalBytes env.contended.seconds
  let qosP99 := match qos with
    | some collectors => collectors.1.percentileMs (99 / 100)
    | none => contendedP99
  { baseline := baseline
    contended := contended
    qos := qos
    contendedP50 := contended.1.percentileMs (50 / 100)
    jitterRatio := contendedP99 / max (baseline.percentileMs (99 / 100)) (1 / 1000)
    unthrottledBGbps := unthrottledBGbps
    qosP99 := qosP99
    qosBGbps := match qos with
      | some collectors => ratePerSecond collectors.2.totalBytes env.qos.seconds
      | none => unthrottledBGbps
    isSlaMet := decide (qosP99 ≤ params.slaThresholdMs) }

/-- The phases on an initialized adapter. -/
def tenantPhases (env : TenantEnvironment) (state : σ) : Except PyException TenantReport × σ :=
  match runTenantAOltp adapter params env.baselineMmap env.baselineNs state with
  | (.error e, state) => (.error e, state)
  | (.ok baseline, state) =>
    match contend adapter params env.contended state with
    | (.error e, state) => (.error e, state)
    | (.ok contended, state) =>
      if params.qosThrottle then
        match contend adapter params env.qos state with
        | (.error e, state) => (.error e, state)
        | (.ok qos, state) => (.ok (tenantReport params env baseline contended (some qos)), state)
      else (.ok (tenantReport params env baseline contended none), state)

/-- `run_multitenant_qos_simulation` on the adapter of its target URI: its report or the
exception that ended it, and its adapter if it was built. -/
def runMultitenantQosSimulation (env : TenantEnvironment) :
    Except PyException TenantReport × Option σ :=
  match adapter.construct with
  | .error e => (.error e, none)
  | .ok state =>
    match adapter.initializeAdapter state with
    | (.error e, state) => (.error e, some state)
    | (.ok (), state) =>
      let (outcome, final) := tenantPhases adapter params env state
      (outcome, some final)

end Program

section Phases

variable {ω F : Type} [DecidableEq F] {system : PosixSystem ω}
  {semantics : FileSemantics F system.toOperatingSystem} {paths : Set String}
  {params : TenantParameters}

/-- What a file holds once the first tenant is done with it. -/
def OltpFile (params : TenantParameters) (before after : List Byte) : Prop :=
  ZeroedPages (min params.tenantAOps 2560) before after

/-- What a file holds once the second tenant is done with it. -/
def BatchFile (params : TenantParameters) (before after : List Byte) : Prop :=
  BulkBlocks params.tenantBMb before after

/-- What both tenants leave of a store. -/
structure TenantFiles (params : TenantParameters) (paths : Set String)
    (before after : String → List Byte) : Prop where
  oltp : OltpFile params (before (tenantPath .oltp)) (after (tenantPath .oltp))
  batch : BatchFile params (before (tenantPath .batch)) (after (tenantPath .batch))
  others : ∀ path ∈ paths, (∀ tenant, path ≠ tenantPath tenant) → after path = before path

/-- Another phase writes the first tenant's blocks again. -/
theorem OltpFile.trans {before middle after : List Byte} (h : OltpFile params before middle)
    (h' : OltpFile params middle after) : OltpFile params before after := by
  have hlonger := ZeroedPages.trans h h'
  rw [Nat.max_self] at hlonger
  exact hlonger

/-- Another phase writes all blocks again. -/
theorem TenantFiles.trans {before middle after : String → List Byte}
    (h : TenantFiles params paths before middle) (h' : TenantFiles params paths middle after) :
    TenantFiles params paths before after where
  oltp := h.oltp.trans h'.oltp
  batch := BulkBlocks.trans h.batch h'.batch
  others := fun path hmem hpath => (h'.others path hmem hpath).trans (h.others path hmem hpath)

/-- A phase with both tenants writes over what the first one wrote alone. -/
theorem TenantFiles.afterAlone {before middle after : String → List Byte}
    (h : OltpFile params (before (tenantPath .oltp)) (middle (tenantPath .oltp)))
    (hkept : ∀ path, path ≠ tenantPath .oltp → middle path = before path)
    (h' : TenantFiles params paths middle after) : TenantFiles params paths before after where
  oltp := h.trans h'.oltp
  batch := by
    rw [← hkept (tenantPath .batch) (by decide)]
    exact h'.batch
  others := fun path hmem hpath => (h'.others path hmem hpath).trans (hkept path (hpath .oltp))

/-- Arguments and mappings that direct I/O and the seeds' width allow, in a phase with both
tenants. -/
structure ContentionSupported (params : TenantParameters) (env : ContentionEnvironment) :
    Prop where
  seeds : params.tenantBMb ≤ 2 ^ 64
  poolMmap : BufferPool.MapsPages env.poolMmap 4
  mutatorMmap : ∃ address, env.mutatorMmap = .ok address ∧ address % 4096 = 0

/-- Where both tenants write what. -/
def tenantPlan (address : ℕ) : ∀ tenant, BlockPlan (TenantSource tenant)
  | .oltp => ⟨4096, fun i => i % 2560, fun _ => List.replicate 4096 0#8,
      fun _ (pool : BufferPool) => pool.Serves 4 4096⟩
  | .batch => ⟨bulkBlockSize, id, bulkBlock,
      fun i (mutator : PySIMDPayloadMutator bulkBlockSize) =>
        mutator.WholeBlock address (seededBlock seedMask (bulkBlockSize / 8) bulkBlockSize i)⟩

/-- Both tenants write as planned. -/
theorem tenants_planned {env : ContentionEnvironment} (h : ContentionSupported params env)
    {address : ℕ} (haddress : address % 4096 = 0) :
    Planned (tenantTasks params env) (tenantPlan address) where
  supplies := by
    intro tenant
    cases tenant with
    | oltp => exact pageRing_supplies _ (recordStep env.oltpNs) 4 params.tenantAOps
    | batch =>
      simp only [tenantTasks, tenantPlan]
      exact bulk_supplies _ env.batchNs h.seeds haddress
  offset := by
    intro tenant i _
    cases tenant with
    | oltp => exact pageRing_offset i
    | batch => rfl
  ownPaths := by
    intro tenant other hne
    have hinjective : Function.Injective tenantPath := by
      intro tenant other hpath
      cases tenant <;> cases other <;> first | rfl | exact absurd hpath (by decide)
    cases tenant <;> cases other <;> exact hinjective.ne hne

/-- The paths of both tasks are the tenants'. -/
theorem tenantTasks_path (env : ContentionEnvironment) (tenant : Tenant) :
    (tenantTasks params env tenant).phase.target.resourcePath = tenantPath tenant := by
  cases tenant <;> rfl

/-- The first tenant alone makes all its writes. -/
theorem runTenantAOltp_ok (hreliable : semantics.Reliable paths)
    (hdistinct : Set.InjOn semantics.fileOf paths) (hpath : tenantPath .oltp ∈ paths) (os : ω)
    {mmap : ℕ → Except PyException ℕ} (hmmap : BufferPool.MapsPages mmap 4) (latencyNs : ℕ → ℕ)
    {adapter : PosixDirectIOAdapter ω} {store : String → List Byte}
    (hstore : PosixRepresents semantics paths adapter store) :
    ∃ final after, runTenantAOltp (posixTargetAdapter system os) params mmap latencyNs adapter =
        (.ok (collected params.tenantAOps 4096 latencyNs), final) ∧
      PosixRepresents semantics paths final after ∧
      OltpFile params (store (tenantPath .oltp)) (after (tenantPath .oltp)) ∧
      ∀ path, path ≠ tenantPath .oltp → after path = store path := by
  obtain ⟨pool, hpool, hserves⟩ := BufferPool.init_serves (by decide) 4096 hmmap
  let start : PhaseState (PosixDirectIOAdapter ω) BufferPool MetricCollector :=
    ⟨adapter, pool, MetricCollector.init⟩
  let target : TargetDescriptor := ⟨params.targetUri, tenantPath .oltp⟩
  obtain ⟨final, after, hrun, hstored, hzeroed, hkept, -, hrecorded⟩ : ∃ final after,
      (pageRingPhase target (recordStep latencyNs)).run (posixTargetAdapter system os)
        params.tenantAOps start = (none, final) ∧ _ :=
    pageRing_run hreliable hdistinct hpath os (recordStep latencyNs) params.tenantAOps hstore
      hserves
  have hrecorded : final.recorded = collected params.tenantAOps 4096 latencyNs :=
    hrecorded.trans (recordedAfter_init rfl 4096 params.tenantAOps)
  refine ⟨final.adapter, after, ?_, hstored, hzeroed, hkept⟩
  have hrun : (oltpPhase params latencyNs).run (posixTargetAdapter system os) params.tenantAOps
      ⟨adapter, pool, MetricCollector.init⟩ = (none, final) := hrun
  simp only [runTenantAOltp, hpool, hrun, hrecorded]

/-- Both tenants gathered make all their writes, in whatever order they take turns. -/
theorem contend_ok (hreliable : semantics.Reliable paths)
    (hdistinct : Set.InjOn semantics.fileOf paths) (hpaths : ∀ tenant, tenantPath tenant ∈ paths)
    (os : ω) {env : ContentionEnvironment} (h : ContentionSupported params env)
    {adapter : PosixDirectIOAdapter ω} {store : String → List Byte}
    (hstore : PosixRepresents semantics paths adapter store) :
    ∃ final after, contend (posixTargetAdapter system os) params env adapter =
        (.ok (collected params.tenantAOps 4096 env.oltpNs,
          collected params.tenantBMb bulkBlockSize env.batchNs), final) ∧
      PosixRepresents semantics paths final after ∧ TenantFiles params paths store after := by
  obtain ⟨pool, hpool, hserves⟩ := BufferPool.init_serves (by decide) 4096 h.poolMmap
  obtain ⟨address, hmutator, haddress⟩ := h.mutatorMmap
  let schedule : List Tenant := env.turns ++
    (List.replicate params.tenantAOps .oltp ++ List.replicate params.tenantBMb .batch)
  have hready : ∀ tenant,
      (tenantPlan address tenant).Ready 0 (tenantSource pool address tenant) := by
    intro tenant
    cases tenant with
    | oltp => exact hserves
    | batch => exact PySIMDPayloadMutator.fresh_seededBlock _ _ _ _
  have hgathered := (gathered_init (tenantPlan address) hstore hready
    fun _ => MetricCollector.init).run hreliable hdistinct
      (fun tenant => (tenantTasks_path env tenant).symm ▸ hpaths tenant)
      (tenants_planned h haddress) os schedule
  obtain ⟨hserved, hunraised, after, hrepresents, hfiles, hothers⟩ := hgathered
  -- the turns at the end let both tenants finish
  have hfinished : ∀ tenant,
      (tenantTasks params env tenant).count ≤ 0 + schedule.count tenant := by
    intro tenant
    cases tenant <;>
      simp only [schedule, tenantTasks, List.count_append, List.count_replicate_self] <;> omega
  have hmade (tenant : Tenant) := (hserved tenant).next.trans (min_eq_left (hfinished tenant))
  have hoperations := (hserved .oltp).recorded
  have hblocks := (hserved .batch).recorded
  have hpages := hfiles .oltp
  have hbulk := hfiles .batch
  rw [hmade] at hoperations hblocks
  rw [hmade, tenantTasks_path] at hpages hbulk
  simp only [tenantTasks, tenantPlan] at hoperations hblocks hpages hbulk
  have hoperations := hoperations.trans (recordedAfter_init rfl 4096 params.tenantAOps)
  have hblocks := hblocks.trans (recordedAfter_init rfl bulkBlockSize params.tenantBMb)
  refine ⟨_, after, ?_, hrepresents, ?_, ?_, ?_⟩
  · simp only [contend, hpool, hmutator]
    rw [hunraised]
    simp only
    rw [hoperations, hblocks]
  · rw [hpages]
    exact zeroedPages_writeBlocks params.tenantAOps _
  · rw [hbulk]
    exact bulkBlocks_writeBlocks params.tenantBMb _
  · intro path _ hpath
    exact hothers path fun tenant => (tenantTasks_path env tenant).symm ▸ hpath tenant

/-- Arguments and mappings that direct I/O and the seeds' width allow. -/
structure TenantSupported (params : TenantParameters) (env : TenantEnvironment) : Prop where
  baselineMmap : BufferPool.MapsPages env.baselineMmap 4
  contended : ContentionSupported params env.contended
  qos : params.qosThrottle = true → ContentionSupported params env.qos

/-- What both tenants' collectors have recorded of a phase. -/
def collectedBoth (params : TenantParameters) (env : ContentionEnvironment) :
    MetricCollector × MetricCollector :=
  (collected params.tenantAOps 4096 env.oltpNs,
    collected params.tenantBMb bulkBlockSize env.batchNs)

/-- The first tenant's latencies in the phase that the verdict is about: the throttled one if
there is one. -/
def judgedLatencies (params : TenantParameters) (env : TenantEnvironment) : List ℕ :=
  (List.range params.tenantAOps).map
    (if params.qosThrottle then env.qos.oltpNs else env.contended.oltpNs)

/-- The report of a simulation whose tenants made all their writes. -/
def servedReport (params : TenantParameters) (env : TenantEnvironment) : TenantReport :=
  tenantReport params env (collected params.tenantAOps 4096 env.baselineNs)
    (collectedBoth params env.contended)
    (if params.qosThrottle then some (collectedBoth params env.qos) else none)

/-- What a simulation leaves on disk and in its report. -/
structure TenantsServed (semantics : FileSemantics F system.toOperatingSystem)
    (paths : Set String) (os : ω) (params : TenantParameters) (env : TenantEnvironment)
    (report : TenantReport) (final : PosixDirectIOAdapter ω) : Prop where
  files : TenantFiles params paths (storeOf semantics os) (storeOf semantics final.os)
  baseline : report.baseline = collected params.tenantAOps 4096 env.baselineNs
  contended : report.contended = collectedBoth params env.contended
  qos : report.qos = if params.qosThrottle then some (collectedBoth params env.qos) else none
  /-- the verdict is on the power of two above the latency of the rank rounded down -/
  verdict : 0 < params.tenantAOps → (∀ latencyNs ∈ judgedLatencies params env, latencyNs < 2 ^ 63) →
    (report.isSlaMet = true ↔
      ((2 ^ bitLength (nthSmallest (judgedLatencies params env)
        ⌊(99 / 100 : ℚ) * params.tenantAOps⌋₊) : ℕ) : ℚ) ≤ params.slaThresholdMs * 1000000)

/-- The percentile of what a tenant's collector has recorded, by the order of the latencies. -/
theorem collected_percentileMs {count : ℕ} (size : ℕ) {latencyNs : ℕ → ℕ} (hcount : 0 < count)
    (hbound : ∀ latency ∈ (List.range count).map latencyNs, latency < 2 ^ 63) :
    (collected count size latencyNs).percentileMs (99 / 100) =
      (2 ^ bitLength (nthSmallest ((List.range count).map latencyNs)
        ⌊(99 / 100 : ℚ) * count⌋₊) : ℕ) / 1000000 := by
  have hne : (List.range count).map latencyNs ≠ [] := by
    rw [Ne, List.map_eq_nil_iff, List.range_eq_nil]
    exact Nat.pos_iff_ne_zero.mp hcount
  change (MetricCollector.init.recordAll ((List.range count).map latencyNs)).percentileMs _ = _
  rw [MetricCollector.percentileMs_eq hne, MetricCollector.percentileNs_eq hbound,
    MetricCollector.recordAll_targetCount _ (by norm_num) (by norm_num), List.length_map,
    List.length_range]

/-- The verdict on what the phases' collectors have recorded. -/
theorem servedReport_verdict (params : TenantParameters) (env : TenantEnvironment)
    (hcount : 0 < params.tenantAOps)
    (hbound : ∀ latencyNs ∈ judgedLatencies params env, latencyNs < 2 ^ 63) :
    (servedReport params env).isSlaMet = true ↔
      ((2 ^ bitLength (nthSmallest (judgedLatencies params env)
        ⌊(99 / 100 : ℚ) * params.tenantAOps⌋₊) : ℕ) : ℚ) ≤ params.slaThresholdMs * 1000000 := by
  have hjudged := collected_percentileMs 4096 hcount hbound
  rw [← div_le_iff₀ (by norm_num : (0 : ℚ) < 1000000), judgedLatencies, ← hjudged]
  cases hthrottle : params.qosThrottle <;>
    simp only [servedReport, tenantReport, collectedBoth, hthrottle, decide_eq_true_eq, if_true,
      if_false, Bool.false_eq_true]

/-- On a reliable file system a simulation ends with its report. Whatever order the tenants
take turns in, each file holds its tenant's blocks and each collector what its tenant did. -/
theorem runMultitenantQosSimulation_served (semantics : FileSemantics F system.toOperatingSystem)
    (hreliable : semantics.Reliable paths) (hdistinct : Set.InjOn semantics.fileOf paths)
    (hpaths : ∀ tenant, tenantPath tenant ∈ paths) (os : ω) (params : TenantParameters)
    (env : TenantEnvironment) (h : TenantSupported params env) :
    ∃ report final,
      runMultitenantQosSimulation (posixTargetAdapter system os) params env =
        (.ok report, some final) ∧
      TenantsServed semantics paths os params env report final := by
  have hempty : PosixRepresents semantics paths (PosixDirectIOAdapter.init os)
      (storeOf semantics os) := ⟨represents_empty fun _ _ => rfl, rfl⟩
  obtain ⟨adapter, middle, halone, hstored, holtp, hkept⟩ :=
    runTenantAOltp_ok hreliable hdistinct (hpaths .oltp) os h.baselineMmap env.baselineNs hempty
  obtain ⟨contended, after, hcontend, hboth, hfiles⟩ :=
    contend_ok hreliable hdistinct hpaths os h.contended hstored
  have hwritten := hfiles.afterAlone holtp hkept
  obtain ⟨final, last, hphases, hlast, hleft⟩ : ∃ final last,
      tenantPhases (posixTargetAdapter system os) params env (PosixDirectIOAdapter.init os) =
        (.ok (servedReport params env), final) ∧
      PosixRepresents semantics paths final last ∧
      TenantFiles params paths (storeOf semantics os) last := by
    cases hthrottle : params.qosThrottle with
    | false =>
      refine ⟨contended, after, ?_, hboth, hwritten⟩
      simp only [tenantPhases, halone, hcontend, servedReport, collectedBoth, hthrottle,
        Bool.false_eq_true, if_false]
    | true =>
      obtain ⟨final, last, hqos, hlast, hagain⟩ :=
        contend_ok hreliable hdistinct hpaths os (h.qos hthrottle) hboth
      refine ⟨final, last, ?_, hlast, hwritten.trans hagain⟩
      simp only [tenantPhases, halone, hcontend, hqos, servedReport, collectedBoth, hthrottle,
        if_true]
  refine ⟨servedReport params env, final, ?_, ?_, rfl, rfl, rfl, servedReport_verdict params env⟩
  · change ((tenantPhases _ _ _ _).1, some (tenantPhases _ _ _ _).2) = _
    rw [hphases]
  · have hcontent : ∀ path ∈ paths, storeOf semantics final.os path = last path :=
      hlast.represents.content
    refine ⟨?_, ?_, ?_⟩
    · rw [hcontent _ (hpaths .oltp)]
      exact hleft.oltp
    · rw [hcontent _ (hpaths .batch)]
      exact hleft.batch
    · intro path hmem hpath
      rw [hcontent path hmem]
      exact hleft.others path hmem hpath

end Phases

/-- Mappings at page boundaries, and turns that alternate at first. -/
def pageContention : ContentionEnvironment where
  poolMmap := fun number => .ok (0x400000 + number * 4096)
  mutatorMmap := .ok 0x200000
  oltpNs := fun step => 1000 + step
  batchNs := fun _ => 5000
  turns := [.oltp, .batch, .batch]
  seconds := 1

/-- A small simulation. -/
def smallTenants : TenantParameters := ⟨3, 2, 2, true, "posix:///tmp/qos_sim_target.dat"⟩

/-- Its surroundings. -/
def pageTenants : TenantEnvironment :=
  ⟨fun number => .ok (0x800000 + number * 4096), fun _ => 900, pageContention, pageContention⟩

/-- Both tenants of the small simulation are served on an empty disk. -/
theorem runMultitenantQosSimulation_served_small :
    ∃ report final,
      runMultitenantQosSimulation
          (posixTargetAdapter (diskSystem fun _ length => length) Disk.empty)
          smallTenants pageTenants = (.ok report, some final) ∧
        TenantsServed (diskSemantics fun _ length => length) Set.univ Disk.empty smallTenants
          pageTenants report final := by
  have hcontention : ContentionSupported smallTenants pageContention := by
    refine ⟨by norm_num [smallTenants], ?_, ⟨_, rfl, by decide⟩⟩
    intro number _
    refine ⟨_, rfl, ?_⟩
    omega
  apply runMultitenantQosSimulation_served (diskSemantics fun _ length => length)
    diskSemantics_reliable Function.injective_id.injOn (fun _ => trivial)
  refine ⟨?_, hcontention, fun _ => hcontention⟩
  intro number _
  refine ⟨_, rfl, ?_⟩
  omega

end Steve.Usecases
