import Mathlib.Tactic.FieldSimp
import Mathlib.Tactic.NormNum
import Steve.Usecases.SharedLoops

/-!
# The storage tiering simulation

A hot tier takes page writes, a warm tier bulk blocks, each through an adapter of its own on the
same file system, and a cold tier takes chunks through the object store adapter. The report
compares prices; what it saves is a fixed part of the price of the hot tier alone, and the
price of an empty dataset ends the simulation after all its writes.
-/

namespace Steve.Usecases

open Steve.Library
open Steve.Adapters
open Steve.Payload
open Steve.Validation

/-- The arguments of a simulation; the counts are natural numbers, so the negative integers
that the source takes as well are left out. -/
structure TieringParameters where
  hotOps : ℕ
  warmMb : ℕ
  coldChunks : ℕ
  datasetTb : ℚ

/-- What a simulation's surroundings decide. -/
structure TieringEnvironment where
  hotUri : String
  warmUri : String
  hotMmap : ℕ → Except PyException ℕ
  warmMmap : Except PyException ℕ
  coldMmap : ℕ → Except PyException ℕ
  hotNs : ℕ → ℕ
  warmNs : ℕ → ℕ
  coldNs : ℕ → ℕ
  hotSeconds : ℚ
  warmSeconds : ℚ
  coldSeconds : ℚ

/-- The collectors of the tiers. -/
structure TierCollectors where
  hot : MetricCollector
  warm : MetricCollector
  cold : MetricCollector

/-- The numbers a simulation prints, with the collectors behind them. -/
structure TieringReport where
  collectors : TierCollectors
  hotIops : ℚ
  hotP99 : ℚ
  warmGbps : ℚ
  coldMbTotal : ℚ
  coldGbps : ℚ
  hotMonthly : ℚ
  tieredMonthly : ℚ
  monthlySavings : ℚ
  threeYearRoi : ℚ
  savingsPct : ℚ

/-- The size of a chunk of the cold tier. -/
def coldBlockSize : ℕ := 5242880

/-- The hot tier's file. -/
def hotTarget (env : TieringEnvironment) : TargetDescriptor := ⟨env.hotUri, "tier_hot_nvme.dat"⟩

/-- The warm tier's file. -/
def warmTarget (env : TieringEnvironment) : TargetDescriptor :=
  ⟨env.warmUri, "tier_warm_block.dat"⟩

/-- The cold tier's resource. -/
def coldTarget : TargetDescriptor :=
  ⟨"s3://compliance-archive-us-east-1/demoted-cold-tier",
    "compliance-archive-us-east-1/demoted-cold-tier"⟩

/-- The loop of the cold tier. -/
def coldPhase (env : TieringEnvironment) : WritePhase BufferPool MetricCollector where
  target := coldTarget
  offset := fun i => i * coldBlockSize
  payload := poolPayload
  record := recordStep env.coldNs

section Program

variable {ω : Type} (system : PosixSystem ω) (params : TieringParameters)
  (env : TieringEnvironment)

/-- The hot tier, through an adapter on a state of the operating system. -/
def hotTier (os : ω) : Except PyException MetricCollector × ω :=
  match BufferPool.init env.hotMmap 4 4096 with
  | .error e => (.error e, os)
  | .ok pool =>
    match (pageRingPhase (hotTarget env) (recordStep env.hotNs)).run (posixTargetAdapter system os)
        params.hotOps ⟨PosixDirectIOAdapter.init os, pool, MetricCollector.init⟩ with
    | (some e, final) => (.error e, final.adapter.os)
    | (none, final) => (.ok final.recorded, final.adapter.os)

/-- The warm tier, through another adapter. -/
def warmTier (os : ω) : Except PyException MetricCollector × ω :=
  match env.warmMmap with
  | .error e => (.error e, os)
  | .ok address =>
    match (bulkPhase (warmTarget env) env.warmNs).run (posixTargetAdapter system os) params.warmMb
        ⟨PosixDirectIOAdapter.init os, .fresh bulkBlockSize address, MetricCollector.init⟩ with
    | (some e, final) => (.error e, final.adapter.os)
    | (none, final) => (.ok final.recorded, final.adapter.os)

/-- The cold tier. -/
def coldTier : Except PyException MetricCollector :=
  match BufferPool.init env.coldMmap 2 coldBlockSize with
  | .error e => .error e
  | .ok pool =>
    match (coldPhase env).run s3TargetAdapter params.coldChunks
        ⟨(), pool, MetricCollector.init⟩ with
    | (some e, _) => .error e
    | (none, final) => .ok final.recorded

/-- The report on the tiers' collectors: savings are divided by the price of the hot tier. -/
def tieringReport (collectors : TierCollectors) : Except PyException TieringReport :=
  let hotMonthly := params.datasetTb * 1024 * (250 / 1000)
  let warmMonthly := params.datasetTb * 1024 * (80 / 1000)
  let coldMonthly := params.datasetTb * 1024 * (23 / 1000)
  let tieredMonthly := 10 / 100 * hotMonthly + 30 / 100 * warmMonthly + 60 / 100 * coldMonthly
  let monthlySavings := hotMonthly - tieredMonthly
  if hotMonthly = 0 then .error ⟨.other "ZeroDivisionError", "float division by zero"⟩
  else .ok {
    collectors := collectors
    hotIops := params.hotOps / atLeastNanosecond env.hotSeconds
    hotP99 := collectors.hot.percentileMs (99 / 100)
    warmGbps := ratePerSecond (params.warmMb * 1024 * 1024) env.warmSeconds
    coldMbTotal := (params.coldChunks * coldBlockSize : ℕ) / (1024 * 1024 : ℕ)
    coldGbps := ratePerSecond (params.coldChunks * coldBlockSize) env.coldSeconds
    hotMonthly := hotMonthly
    tieredMonthly := tieredMonthly
    monthlySavings := monthlySavings
    threeYearRoi := monthlySavings * 12 * 3
    savingsPct := (hotMonthly - tieredMonthly) / hotMonthly * 100 }

/-- `run_storage_tiering_simulation` on a state of the operating system: its report or the
exception that ended it, and the state it leaves. -/
def runStorageTieringSimulation (os : ω) : Except PyException TieringReport × ω :=
  match hotTier system params env os with
  | (.error e, os) => (.error e, os)
  | (.ok hot, os) =>
    match warmTier system params env os with
    | (.error e, os) => (.error e, os)
    | (.ok warm, os) =>
      match coldTier params env with
      | .error e => (.error e, os)
      | .ok cold => (tieringReport params env ⟨hot, warm, cold⟩, os)

end Program

section Runs

variable {ω F : Type} [DecidableEq F] {system : PosixSystem ω}
  {semantics : FileSemantics F system.toOperatingSystem} {paths : Set String}
  {params : TieringParameters} {env : TieringEnvironment}

/-- An adapter's first state represents what the files hold. -/
theorem posixRepresents_init {os : ω} {store : String → List Byte}
    (hcontent : ∀ path ∈ paths, storeOf semantics os path = store path) :
    PosixRepresents semantics paths (PosixDirectIOAdapter.init os) store :=
  ⟨represents_empty hcontent, rfl⟩

/-- The hot tier makes all its writes. -/
theorem hotTier_ok (hreliable : semantics.Reliable paths)
    (hdistinct : Set.InjOn semantics.fileOf paths) (hpath : (hotTarget env).resourcePath ∈ paths)
    (hmmap : BufferPool.MapsPages env.hotMmap 4) (os : ω) :
    ∃ after, hotTier system params env os =
        (.ok (collected params.hotOps 4096 env.hotNs), after) ∧
      ZeroedPages (min params.hotOps 2560) (storeOf semantics os (hotTarget env).resourcePath)
        (storeOf semantics after (hotTarget env).resourcePath) ∧
      ∀ path ∈ paths, path ≠ (hotTarget env).resourcePath →
        storeOf semantics after path = storeOf semantics os path := by
  obtain ⟨pool, hpool, hserves⟩ := BufferPool.init_serves (by decide) 4096 hmmap
  let start : PhaseState (PosixDirectIOAdapter ω) BufferPool MetricCollector :=
    ⟨PosixDirectIOAdapter.init os, pool, MetricCollector.init⟩
  have hstart : PosixRepresents semantics paths start.adapter (storeOf semantics os) :=
    posixRepresents_init fun _ _ => rfl
  obtain ⟨final, after, hrun, hafter, hzeroed, hkept, -, hrecorded⟩ : ∃ final after,
      (pageRingPhase (hotTarget env) (recordStep env.hotNs)).run (posixTargetAdapter system os)
        params.hotOps start = (none, final) ∧ _ :=
    pageRing_run hreliable hdistinct hpath os (recordStep env.hotNs) params.hotOps hstart hserves
  have hcollected : final.recorded = collected params.hotOps 4096 env.hotNs :=
    hrecorded.trans (recordedAfter_init rfl 4096 params.hotOps)
  have hcontent : ∀ path ∈ paths, storeOf semantics final.adapter.os path = after path :=
    hafter.represents.content
  refine ⟨final.adapter.os, ?_, ?_, ?_⟩
  · simp only [hotTier, hpool]
    rw [hrun]
    simp only [hcollected]
  · rw [hcontent _ hpath]
    exact hzeroed
  · intro path hmem hne
    rw [hcontent path hmem]
    exact hkept path hne

/-- The warm tier makes all its writes. -/
theorem warmTier_ok (hreliable : semantics.Reliable paths)
    (hdistinct : Set.InjOn semantics.fileOf paths) (hpath : (warmTarget env).resourcePath ∈ paths)
    (hseeds : params.warmMb ≤ 2 ^ 64) {address : ℕ} (hmmap : env.warmMmap = .ok address)
    (haddress : address % 4096 = 0) (os : ω) :
    ∃ after, warmTier system params env os =
        (.ok (collected params.warmMb bulkBlockSize env.warmNs), after) ∧
      BulkBlocks params.warmMb (storeOf semantics os (warmTarget env).resourcePath)
        (storeOf semantics after (warmTarget env).resourcePath) ∧
      ∀ path ∈ paths, path ≠ (warmTarget env).resourcePath →
        storeOf semantics after path = storeOf semantics os path := by
  have hstart : PosixRepresents semantics paths (PosixDirectIOAdapter.init os)
      (storeOf semantics os) := posixRepresents_init fun _ _ => rfl
  obtain ⟨final, after, hrun, hafter, hblocks, hkept, hcollected⟩ :=
    bulk_run hreliable hdistinct hpath os env.warmNs hseeds haddress hstart
  have hcontent : ∀ path ∈ paths, storeOf semantics final.adapter.os path = after path :=
    hafter.represents.content
  refine ⟨final.adapter.os, ?_, ?_, ?_⟩
  · simp only [warmTier, hmmap]
    rw [hrun]
    simp only [hcollected]
  · rw [hcontent _ hpath]
    exact hblocks
  · intro path hmem hne
    rw [hcontent path hmem]
    exact hkept path hne

/-- The cold tier makes all its writes. -/
theorem coldTier_ok (hmmap : BufferPool.MapsPages env.coldMmap 2) :
    coldTier params env = .ok (collected params.coldChunks coldBlockSize env.coldNs) := by
  obtain ⟨pool, hpool, hserves⟩ := BufferPool.init_serves (by decide) coldBlockSize hmmap
  have hoffset : ∀ i < params.coldChunks, (coldPhase env).offset i % 4096 = 0 := by
    intro i _
    change i * (1280 * 4096) % 4096 = 0
    rw [← Nat.mul_assoc, Nat.mul_mod_left]
  have hsupplies : (coldPhase env).Supplies coldBlockSize params.coldChunks
      (fun _ => List.replicate coldBlockSize 0#8) fun _ pool => pool.Serves 2 coldBlockSize :=
    pool_supplies (fun _ _ => rfl) (by decide) (by decide) hoffset
  let start : PhaseState Unit BufferPool MetricCollector := ⟨(), pool, MetricCollector.init⟩
  obtain ⟨final, hrun, hrecorded, -⟩ : ∃ final,
      (coldPhase env).run s3TargetAdapter params.coldChunks start = (none, final) ∧
        final.recorded =
          (coldPhase env).recordedAfter coldBlockSize params.coldChunks start.recorded ∧ _ :=
    WritePhase.run_acceptsPages s3TargetAdapter_acceptsPages hsupplies hserves
  have hcollected : final.recorded = collected params.coldChunks coldBlockSize env.coldNs :=
    hrecorded.trans (recordedAfter_init rfl coldBlockSize params.coldChunks)
  simp only [coldTier, hpool]
  rw [hrun]
  simp only [hcollected]

/-- Arguments and mappings that direct I/O and the seeds' width allow. -/
structure TieringSupported (params : TieringParameters) (env : TieringEnvironment) : Prop where
  seeds : params.warmMb ≤ 2 ^ 64
  hotMmap : BufferPool.MapsPages env.hotMmap 4
  warmMmap : ∃ address, env.warmMmap = .ok address ∧ address % 4096 = 0
  coldMmap : BufferPool.MapsPages env.coldMmap 2

/-- What the tiers' collectors have recorded. -/
def tiersCollected (params : TieringParameters) (env : TieringEnvironment) : TierCollectors where
  hot := collected params.hotOps 4096 env.hotNs
  warm := collected params.warmMb bulkBlockSize env.warmNs
  cold := collected params.coldChunks coldBlockSize env.coldNs

/-- What the tiers leave of the files. -/
structure TierFiles (semantics : FileSemantics F system.toOperatingSystem) (paths : Set String)
    (params : TieringParameters) (env : TieringEnvironment) (before after : ω) : Prop where
  hot : ZeroedPages (min params.hotOps 2560)
    (storeOf semantics before (hotTarget env).resourcePath)
    (storeOf semantics after (hotTarget env).resourcePath)
  warm : BulkBlocks params.warmMb (storeOf semantics before (warmTarget env).resourcePath)
    (storeOf semantics after (warmTarget env).resourcePath)
  others : ∀ path ∈ paths, path ≠ (hotTarget env).resourcePath →
    path ≠ (warmTarget env).resourcePath →
      storeOf semantics after path = storeOf semantics before path

/-- What a report says about tiers and prices. -/
structure TiersReported (params : TieringParameters) (env : TieringEnvironment)
    (report : TieringReport) : Prop where
  collectors : report.collectors = tiersCollected params env
  /-- the printed rates are those of the bytes recorded -/
  warm : report.warmGbps = ratePerSecond report.collectors.warm.totalBytes env.warmSeconds
  cold : report.coldGbps = ratePerSecond report.collectors.cold.totalBytes env.coldSeconds
  coldMb : report.coldMbTotal = 5 * params.coldChunks
  /-- the savings are a fixed part of the price, whatever the dataset -/
  savings : report.savingsPct = 7488 / 100
  roi : report.threeYearRoi = 36 * (7488 / 10000) * report.hotMonthly

/-- The report on what the tiers' collectors have recorded. -/
theorem tieringReport_collected (params : TieringParameters) (env : TieringEnvironment)
    (hdataset : params.datasetTb ≠ 0) :
    ∃ report, tieringReport params env (tiersCollected params env) = .ok report ∧
      TiersReported params env report := by
  have hprice : params.datasetTb * 1024 * (250 / 1000) ≠ 0 := by
    have hfactor : (1024 * (250 / 1000) : ℚ) ≠ 0 := by norm_num
    rw [mul_assoc]
    exact mul_ne_zero hdataset hfactor
  have hwarm := (collected_totals params.warmMb bulkBlockSize env.warmNs).2
  have hcold := (collected_totals params.coldChunks coldBlockSize env.coldNs).2
  refine ⟨_, if_neg hprice, rfl, ?_, ?_, ?_, ?_, ?_⟩
  · change ratePerSecond (params.warmMb * 1024 * 1024) env.warmSeconds =
      ratePerSecond (collected params.warmMb bulkBlockSize env.warmNs).totalBytes env.warmSeconds
    rw [hwarm, Nat.mul_assoc]
    rfl
  · change ratePerSecond (params.coldChunks * coldBlockSize) env.coldSeconds =
      ratePerSecond (collected params.coldChunks coldBlockSize env.coldNs).totalBytes
        env.coldSeconds
    rw [hcold]
  · change ((params.coldChunks * coldBlockSize : ℕ) : ℚ) / (1024 * 1024 : ℕ) = _
    have hmebibytes : params.coldChunks * coldBlockSize =
        5 * params.coldChunks * (1024 * 1024) := by
      rw [coldBlockSize]
      omega
    have hsize : ((1024 * 1024 : ℕ) : ℚ) ≠ 0 := by norm_num
    rw [hmebibytes, Nat.cast_mul, mul_div_cancel_right₀ _ hsize, Nat.cast_mul, Nat.cast_ofNat]
  · simp only
    rw [div_mul_eq_mul_div, div_eq_iff hprice]
    ring
  · simp only
    ring

/-- On a reliable file system all tiers make their writes, and the report on them ends the
simulation unless the dataset is empty. -/
theorem runStorageTieringSimulation_tiers (semantics : FileSemantics F system.toOperatingSystem)
    (hreliable : semantics.Reliable paths) (hdistinct : Set.InjOn semantics.fileOf paths)
    (params : TieringParameters) (env : TieringEnvironment)
    (hhot : (hotTarget env).resourcePath ∈ paths) (hwarm : (warmTarget env).resourcePath ∈ paths)
    (os : ω) (h : TieringSupported params env) :
    ∃ after, TierFiles semantics paths params env os after ∧
      (params.datasetTb ≠ 0 → ∃ report,
        runStorageTieringSimulation system params env os = (.ok report, after) ∧
          TiersReported params env report) ∧
      (params.datasetTb = 0 → runStorageTieringSimulation system params env os =
        (.error ⟨.other "ZeroDivisionError", "float division by zero"⟩, after)) := by
  obtain ⟨address, hmmap, haddress⟩ := h.warmMmap
  obtain ⟨middle, hhotTier, hzeroed, hkept⟩ : ∃ middle, hotTier system params env os =
      (.ok (collected params.hotOps 4096 env.hotNs), middle) ∧ _ :=
    hotTier_ok hreliable hdistinct hhot h.hotMmap os
  obtain ⟨after, hwarmTier, hblocks, hothers⟩ : ∃ after, warmTier system params env middle =
      (.ok (collected params.warmMb bulkBlockSize env.warmNs), after) ∧ _ :=
    warmTier_ok hreliable hdistinct hwarm h.seeds hmmap haddress middle
  have hrun : runStorageTieringSimulation system params env os =
      (tieringReport params env (tiersCollected params env), after) := by
    simp only [runStorageTieringSimulation, hhotTier, hwarmTier, coldTier_ok h.coldMmap,
      tiersCollected]
  have hnames : "tier_hot_nvme.dat" ≠ "tier_warm_block.dat" := by decide
  have hpaths : (hotTarget env).resourcePath ≠ (warmTarget env).resourcePath := hnames
  refine ⟨after, ⟨?_, ?_, ?_⟩, ?_, ?_⟩
  · rw [hothers _ hhot hpaths]
    exact hzeroed
  · rw [← hkept _ hwarm hpaths.symm]
    exact hblocks
  · intro path hmem hpath hne
    rw [hothers path hmem hne, hkept path hmem hpath]
  · intro hdataset
    obtain ⟨report, hreport, hreported⟩ := tieringReport_collected params env hdataset
    exact ⟨report, by rw [hrun, hreport], hreported⟩
  · intro hdataset
    have hprice : params.datasetTb * 1024 * (250 / 1000) = 0 := by
      rw [hdataset, zero_mul, zero_mul]
    rw [hrun, tieringReport]
    simp only [if_pos hprice]

end Runs

/-- A small simulation. -/
def smallTiers : TieringParameters := ⟨3, 2, 1, 10⟩

/-- Its surroundings. -/
def pageTiers : TieringEnvironment where
  hotUri := "posix:///tmp/tier_hot_nvme.dat"
  warmUri := "posix:///tmp/tier_warm_block.dat"
  hotMmap := fun number => .ok (0x400000 + number * 4096)
  warmMmap := .ok 0x200000
  coldMmap := fun number => .ok (0x800000 + number * 5242880)
  hotNs := fun _ => 1000
  warmNs := fun step => 5000 + step
  coldNs := fun _ => 90000
  hotSeconds := 1
  warmSeconds := 1
  coldSeconds := 1

/-- All tiers of the small simulation make their writes on an empty disk. -/
theorem runStorageTieringSimulation_tiers_small :
    ∃ after, TierFiles (diskSemantics fun _ length => length) Set.univ smallTiers pageTiers
        Disk.empty after ∧
      (smallTiers.datasetTb ≠ 0 → ∃ report,
        runStorageTieringSimulation (diskSystem fun _ length => length) smallTiers pageTiers
            Disk.empty = (.ok report, after) ∧
          TiersReported smallTiers pageTiers report) ∧
      (smallTiers.datasetTb = 0 →
        runStorageTieringSimulation (diskSystem fun _ length => length) smallTiers pageTiers
          Disk.empty = (.error ⟨.other "ZeroDivisionError", "float division by zero"⟩, after)) := by
  apply runStorageTieringSimulation_tiers (diskSemantics fun _ length => length)
    diskSemantics_reliable Function.injective_id.injOn smallTiers pageTiers trivial trivial
  refine ⟨by norm_num [smallTiers], ?_, ⟨_, rfl, by decide⟩, ?_⟩
  · intro number _
    refine ⟨_, rfl, ?_⟩
    omega
  · intro number _
    refine ⟨_, rfl, ?_⟩
    omega

end Steve.Usecases
