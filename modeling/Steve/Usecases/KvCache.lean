import Steve.Library.StridedResidues
import Steve.Usecases.WritePhase

/-!
# The cache and checkpoint simulation

One file takes three phases in turn: a prefill in blocks of a mebibyte, side by side; decode
steps, each of which writes one page at a place that walks around the context in strides of
37 pages; and a checkpoint dump from the file's beginning. Later phases write over earlier
ones. Of a page the last step that reached it shows, so only the steps of the last period of
the walk leave anything behind.
-/

namespace Steve.Usecases

open Steve.Library
open Steve.Adapters
open Steve.Payload
open Steve.Validation

/-- The arguments of a simulation; the sizes and counts are natural numbers, so the negative
integers that the source takes as well are left out. -/
structure KvCacheParameters where
  prefillMb : ℕ
  decodeTokens : ℕ
  checkpointMb : ℕ
  pageBlockKb : ℕ
  targetUri : String

/-- What a simulation's surroundings decide. -/
structure KvCacheEnvironment where
  /-- the addresses of both mutators' mappings, or the failures to map them -/
  prefillMmap : Except PyException ℕ
  decodeMmap : Except PyException ℕ
  /-- those of the checkpoint pool's mappings, in turn -/
  poolMmap : ℕ → Except PyException ℕ
  prefillNs : ℕ → ℕ
  decodeNs : ℕ → ℕ
  /-- the time measured around each phase -/
  prefillSec : ℚ
  decodeSec : ℚ
  ckptSec : ℚ

/-- The numbers a simulation prints, with the collectors behind them. -/
structure KvCacheReport where
  prefill : MetricCollector
  decode : MetricCollector
  prefillGbps : ℚ
  prefillMs : ℚ
  tokensPerSec : ℚ
  decodeP50 : ℚ
  decodeP90 : ℚ
  decodeP99 : ℚ
  ckptRateGbps : ℚ

/-- A simulation's end: its report or the exception that ended it, and its adapter if it was
built. -/
structure KvCacheRun (σ : Type) where
  outcome : Except PyException KvCacheReport
  adapter : Option σ

/-- The size of a prefill or checkpoint block. -/
def prefillBlockSize : ℕ := 1048576

namespace KvCacheParameters

variable (params : KvCacheParameters)

/-- The resource that all phases write, whatever file the URI names. -/
def target : TargetDescriptor := ⟨params.targetUri, "ai_sim_target.dat"⟩

/-- The number of prefill blocks. -/
def prefillBlocks : ℕ := max 1 params.prefillMb

/-- The size of a page. -/
def decodeBlockSize : ℕ := params.pageBlockKb * 1024

/-- The number of pages of the context. -/
def contextPages : ℕ :=
  max 1 (max (params.prefillMb * 1024 * 1024) params.decodeBlockSize / params.decodeBlockSize)

/-- The page of a decode step. -/
def virtualBlockId (step : ℕ) : ℕ := step * 37 % params.contextPages

/-- The prefill loop. -/
def prefillPhase (env : KvCacheEnvironment) :
    WritePhase (PySIMDPayloadMutator prefillBlockSize) MetricCollector where
  target := params.target
  offset := fun i => i * prefillBlockSize
  payload := mutatedPayload fun i mutator =>
    mutator.mutateEntropyBlock 0 prefillBlockSize (7 / 10) i
  record := recordStep env.prefillNs

/-- The decode loop. -/
def decodePhase (env : KvCacheEnvironment) :
    WritePhase (PySIMDPayloadMutator params.decodeBlockSize) MetricCollector where
  target := params.target
  offset := fun step => params.virtualBlockId step * params.decodeBlockSize
  payload := mutatedPayload fun step mutator =>
    mutator.applyEntropy 0 params.decodeBlockSize step
  record := recordStep env.decodeNs

/-- The checkpoint loop, which records nothing. -/
def checkpointPhase : WritePhase BufferPool Unit where
  target := params.target
  offset := fun i => i * prefillBlockSize
  payload := poolPayload
  record := fun _ _ _ => ()

end KvCacheParameters

section Run

variable {σ : Type} (adapter : TargetAdapter σ) (params : KvCacheParameters)
  (env : KvCacheEnvironment)

/-- The checkpoint phase: dump and flush; the pool is closed either way. -/
def runCheckpoint (state : σ) : Except PyException Unit × σ :=
  match BufferPool.init env.poolMmap 4 prefillBlockSize with
  | .error e => (.error e, state)
  | .ok pool =>
    match params.checkpointPhase.run adapter params.checkpointMb ⟨state, pool, ()⟩ with
    | (some e, final) => (.error e, final.adapter)
    | (none, final) => adapter.flush final.adapter params.target

/-- The report of a simulation that reached its end. -/
def kvCacheReport (prefill decode : MetricCollector) : KvCacheReport where
  prefill := prefill
  decode := decode
  prefillGbps := ratePerSecond (params.prefillMb * 1024 * 1024) env.prefillSec
  prefillMs := atLeastNanosecond env.prefillSec * 1000
  tokensPerSec := params.decodeTokens / atLeastNanosecond env.decodeSec
  decodeP50 := decode.percentileMs (50 / 100)
  decodeP90 := decode.percentileMs (90 / 100)
  decodeP99 := decode.percentileMs (99 / 100)
  ckptRateGbps := ratePerSecond (params.checkpointMb * 1024 * 1024) env.ckptSec

/-- The three phases on an initialized adapter. -/
def kvCachePhases (state : σ) : Except PyException KvCacheReport × σ :=
  match env.prefillMmap with
  | .error e => (.error e, state)
  | .ok address =>
    match (params.prefillPhase env).run adapter params.prefillBlocks
        ⟨state, .fresh prefillBlockSize address, MetricCollector.init⟩ with
    | (some e, final) => (.error e, final.adapter)
    | (none, prefilled) =>
      match env.decodeMmap with
      | .error e => (.error e, prefilled.adapter)
      | .ok address =>
        match (params.decodePhase env).run adapter params.decodeTokens
            ⟨prefilled.adapter, .fresh params.decodeBlockSize address, MetricCollector.init⟩ with
        | (some e, final) => (.error e, final.adapter)
        | (none, decoded) =>
          match runCheckpoint adapter params env decoded.adapter with
          | (.error e, final) => (.error e, final)
          | (.ok (), final) =>
            (.ok (kvCacheReport params env prefilled.recorded decoded.recorded), final)

/-- `run_ai_kv_cache_simulation` on the adapter of its target URI, which it never closes. -/
def runAiKvCacheSimulation : KvCacheRun σ :=
  match adapter.construct with
  | .error e => ⟨.error e, none⟩
  | .ok state =>
    match adapter.initializeAdapter state with
    | (.error e, state) => ⟨.error e, some state⟩
    | (.ok (), state) =>
      let (outcome, final) := kvCachePhases adapter params env state
      ⟨outcome, some final⟩

end Run

section Image

variable (params : KvCacheParameters) (env : KvCacheEnvironment)

/-- What prefill block `i` holds. -/
def prefillBlock (i : ℕ) : List Byte :=
  seededBlock ratioMask (ratioWords (7 / 10) prefillBlockSize) prefillBlockSize (i + 1)

/-- What a decode step writes into its page. -/
def decodeBlock (step : ℕ) : List Byte :=
  seededBlock seedMask (params.decodeBlockSize / 8) params.decodeBlockSize (step + 1)

/-- The file after the three phases. -/
def kvCacheContent (before : List Byte) : List Byte :=
  writeBlocks prefillBlockSize id (fun _ => List.replicate prefillBlockSize 0#8)
    (writeBlocks params.decodeBlockSize params.virtualBlockId (decodeBlock params)
      (writeBlocks prefillBlockSize id prefillBlock before params.prefillBlocks)
      params.decodeTokens)
    params.checkpointMb

/-- How the phases lie over each other in the file. -/
structure KvCacheImage (before after : List Byte) : Prop where
  /-- the checkpoint is on top -/
  checkpoint : ∀ position < params.checkpointMb * prefillBlockSize, byteAt after position = 0
  /-- of the decode steps those of the last period show -/
  decoded : ∀ step < params.decodeTokens,
    params.decodeTokens ≤ step + walkPeriod 37 params.contextPages →
      ∀ position, params.checkpointMb * prefillBlockSize ≤ position →
        position / params.decodeBlockSize = params.virtualBlockId step →
          byteAt after position =
            byteAt (decodeBlock params step) (position % params.decodeBlockSize)
  /-- on pages no step reached the prefill shows -/
  prefilled : ∀ position, params.checkpointMb * prefillBlockSize ≤ position →
    position < params.prefillBlocks * prefillBlockSize →
      (∀ step < params.decodeTokens,
        params.virtualBlockId step ≠ position / params.decodeBlockSize) →
          byteAt after position =
            byteAt (prefillBlock (position / prefillBlockSize)) (position % prefillBlockSize)
  /-- and past all of these what the file held before -/
  untouched : ∀ position, params.checkpointMb * prefillBlockSize ≤ position →
    params.prefillBlocks * prefillBlockSize ≤ position →
      (∀ step < params.decodeTokens,
        params.virtualBlockId step ≠ position / params.decodeBlockSize) →
          byteAt after position = byteAt before position
  /-- the pages the decode steps reached -/
  pages : ((Finset.range params.decodeTokens).image params.virtualBlockId).card =
    min params.decodeTokens (walkPeriod 37 params.contextPages)

/-- The context has a page. -/
theorem contextPages_pos : 0 < params.contextPages :=
  Nat.lt_of_lt_of_le Nat.one_pos (Nat.le_max_left _ _)

/-- The phases lie over each other in the order they ran. -/
theorem kvCacheContent_image (hpage : 0 < params.decodeBlockSize) (before : List Byte) :
    KvCacheImage params before (kvCacheContent params before) := by
  have hblock : 0 < prefillBlockSize := by decide
  have hzeros (content : List Byte) (position : ℕ) :
      byteAt (writeBlocks prefillBlockSize id (fun _ => List.replicate prefillBlockSize 0#8) content
        params.checkpointMb) position =
          if position < params.checkpointMb * prefillBlockSize then
            byteAt (List.replicate prefillBlockSize 0#8) (position % prefillBlockSize)
          else byteAt content position :=
    byteAt_writeBlocks_sideBySide hblock (fun _ _ => List.length_replicate) position
  have hprefill (position : ℕ) :
      byteAt (writeBlocks prefillBlockSize id prefillBlock before params.prefillBlocks) position =
        if position < params.prefillBlocks * prefillBlockSize then
          byteAt (prefillBlock (position / prefillBlockSize)) (position % prefillBlockSize)
        else byteAt before position :=
    byteAt_writeBlocks_sideBySide hblock (fun _ _ => seededBlock_length _ _ _ _) position
  have hdecode : ∀ i < params.decodeTokens, (decodeBlock params i).length =
      params.decodeBlockSize := fun _ _ => seededBlock_length _ _ _ _
  refine ⟨?_, ?_, ?_, ?_, ?_⟩
  · intro position hposition
    rw [kvCacheContent, hzeros, if_pos hposition]
    exact byteAt_zeros _ _
  · intro step hstep hperiod position hposition hplace
    rw [kvCacheContent, hzeros, if_neg (Nat.not_lt.mpr hposition)]
    apply byteAt_writeBlocks_last hpage hdecode
    rw [hplace]
    exact (isGreatest_walk_iff 37 (contextPages_pos params) hstep).mpr hperiod
  · intro position hposition hinside hpages
    rw [kvCacheContent, hzeros, if_neg (Nat.not_lt.mpr hposition),
      byteAt_writeBlocks_untouched hpage hdecode hpages, hprefill, if_pos hinside]
  · intro position hposition houtside hpages
    rw [kvCacheContent, hzeros, if_neg (Nat.not_lt.mpr hposition),
      byteAt_writeBlocks_untouched hpage hdecode hpages, hprefill,
      if_neg (Nat.not_lt.mpr houtside)]
  · exact card_walk 37 (contextPages_pos params) params.decodeTokens

end Image

section Simulation

variable {ω F : Type} [DecidableEq F] {system : PosixSystem ω}
  {semantics : FileSemantics F system.toOperatingSystem} {paths : Set String}
  {params : KvCacheParameters} {env : KvCacheEnvironment}

/-- Arguments and mappings that direct I/O and the seeds' width allow. -/
structure KvCacheSupported (params : KvCacheParameters) (env : KvCacheEnvironment) : Prop where
  pages : 0 < params.pageBlockKb ∧ 4 ∣ params.pageBlockKb
  prefillSeeds : params.prefillMb ≤ 2 ^ 64
  decodeSeeds : params.decodeTokens ≤ 2 ^ 64
  prefillMmap : ∃ address, env.prefillMmap = .ok address ∧ address % 4096 = 0
  decodeMmap : ∃ address, env.decodeMmap = .ok address ∧ address % 4096 = 0
  poolMmap : BufferPool.MapsPages env.poolMmap 4

/-- Pages are whole blocks of direct I/O. -/
theorem KvCacheSupported.decodeBlockSize (h : KvCacheSupported params env) :
    0 < params.decodeBlockSize ∧ params.decodeBlockSize % 4096 = 0 := by
  obtain ⟨hpos, count, hcount⟩ := h.pages
  rw [KvCacheParameters.decodeBlockSize]
  omega

/-- The prefill loop writes its blocks side by side. -/
theorem prefill_run (h : KvCacheSupported params env) (hreliable : semantics.Reliable paths)
    (hdistinct : Set.InjOn semantics.fileOf paths) (hpath : "ai_sim_target.dat" ∈ paths) (os : ω)
    {adapter : PosixDirectIOAdapter ω} {store : String → List Byte}
    (hstore : PosixRepresents semantics paths adapter store) {address : ℕ}
    (haddress : address % 4096 = 0) :
    ∃ final, (params.prefillPhase env).run (posixTargetAdapter system os) params.prefillBlocks
        ⟨adapter, .fresh prefillBlockSize address, MetricCollector.init⟩ = (none, final) ∧
      (params.prefillPhase env).Leaves semantics paths prefillBlockSize id prefillBlock store
        MetricCollector.init params.prefillBlocks final := by
  have hblocks : params.prefillBlocks ≤ 2 ^ 64 := max_le (by norm_num) h.prefillSeeds
  have hoffset : ∀ i < params.prefillBlocks, (params.prefillPhase env).offset i % 4096 = 0 := by
    intro i _
    change i * (256 * 4096) % 4096 = 0
    rw [← Nat.mul_assoc, Nat.mul_mod_left]
  have hsupplies : (params.prefillPhase env).Supplies prefillBlockSize params.prefillBlocks
      prefillBlock fun i mutator => mutator.WholeBlock address
        (seededBlock ratioMask (ratioWords (7 / 10) prefillBlockSize) prefillBlockSize i) :=
    mutator_supplies rfl (fun i hi _ hmutator =>
      PySIMDPayloadMutator.mutateEntropyBlock_seededBlock (by norm_num) (hi.trans_le hblocks)
        hmutator) haddress (by decide) (by decide) hoffset
  exact WritePhase.run_posix hreliable hdistinct hpath hsupplies (fun _ _ => rfl) os hstore
    (PySIMDPayloadMutator.fresh_seededBlock _ _ _ _)

/-- The decode loop writes its pages around the context. -/
theorem decode_run (h : KvCacheSupported params env) (hreliable : semantics.Reliable paths)
    (hdistinct : Set.InjOn semantics.fileOf paths) (hpath : "ai_sim_target.dat" ∈ paths) (os : ω)
    {adapter : PosixDirectIOAdapter ω} {store : String → List Byte}
    (hstore : PosixRepresents semantics paths adapter store) {address : ℕ}
    (haddress : address % 4096 = 0) :
    ∃ final, (params.decodePhase env).run (posixTargetAdapter system os) params.decodeTokens
        ⟨adapter, .fresh params.decodeBlockSize address, MetricCollector.init⟩ = (none, final) ∧
      (params.decodePhase env).Leaves semantics paths params.decodeBlockSize
        params.virtualBlockId (decodeBlock params) store MetricCollector.init
        params.decodeTokens final := by
  obtain ⟨hpos, hpages⟩ := h.decodeBlockSize
  have hoffset : ∀ i < params.decodeTokens, (params.decodePhase env).offset i % 4096 = 0 := by
    intro i _
    exact Nat.mod_eq_zero_of_dvd ((Nat.dvd_of_mod_eq_zero hpages).mul_left _)
  have hsupplies : (params.decodePhase env).Supplies params.decodeBlockSize params.decodeTokens
      (decodeBlock params) fun i mutator => mutator.WholeBlock address
        (seededBlock seedMask (params.decodeBlockSize / 8) params.decodeBlockSize i) :=
    mutator_supplies rfl (fun i hi _ hmutator =>
      PySIMDPayloadMutator.applyEntropy_seededBlock (hi.trans_le h.decodeSeeds) hmutator)
      haddress hpos hpages hoffset
  exact WritePhase.run_posix hreliable hdistinct hpath hsupplies (fun _ _ => rfl) os hstore
    (PySIMDPayloadMutator.fresh_seededBlock _ _ _ _)

/-- The checkpoint phase writes zeroed blocks side by side. -/
theorem checkpoint_run (h : KvCacheSupported params env) (hreliable : semantics.Reliable paths)
    (hdistinct : Set.InjOn semantics.fileOf paths) (hpath : "ai_sim_target.dat" ∈ paths) (os : ω)
    {adapter : PosixDirectIOAdapter ω} {store : String → List Byte}
    (hstore : PosixRepresents semantics paths adapter store) :
    ∃ final, runCheckpoint (posixTargetAdapter system os) params env adapter = (.ok (), final) ∧
      PosixRepresents semantics paths final (Function.update store "ai_sim_target.dat"
        (writeBlocks prefillBlockSize id (fun _ => List.replicate prefillBlockSize 0#8)
          (store "ai_sim_target.dat") params.checkpointMb)) := by
  obtain ⟨pool, hpool, hserves⟩ :=
    BufferPool.init_serves (by decide) prefillBlockSize h.poolMmap
  have hoffset : ∀ i < params.checkpointMb, params.checkpointPhase.offset i % 4096 = 0 := by
    intro i _
    change i * (256 * 4096) % 4096 = 0
    rw [← Nat.mul_assoc, Nat.mul_mod_left]
  have hsupplies : params.checkpointPhase.Supplies prefillBlockSize params.checkpointMb
      (fun _ => List.replicate prefillBlockSize 0#8) fun _ pool => pool.Serves 4 prefillBlockSize :=
    pool_supplies (fun _ _ => rfl) (by decide) (by decide) hoffset
  obtain ⟨written, hwritten, hleaves⟩ : ∃ final,
      params.checkpointPhase.run (posixTargetAdapter system os) params.checkpointMb
        ⟨adapter, pool, ()⟩ = (none, final) ∧
      params.checkpointPhase.Leaves semantics paths prefillBlockSize id
        (fun _ => List.replicate prefillBlockSize 0#8) store () params.checkpointMb final :=
    WritePhase.run_posix hreliable hdistinct hpath hsupplies (fun _ _ => rfl) os hstore hserves
  obtain ⟨final, hflush, hfinal⟩ := hleaves.represents.flush hreliable params.target
  refine ⟨final, ?_, hfinal⟩
  simp only [runCheckpoint, hpool, hwritten]
  exact hflush

/-- What a simulation leaves on disk and in its report. -/
structure KvCacheLeaves (semantics : FileSemantics F system.toOperatingSystem)
    (paths : Set String) (os : ω) (params : KvCacheParameters) (env : KvCacheEnvironment)
    (report : KvCacheReport) (final : PosixDirectIOAdapter ω) : Prop where
  /-- the phases' blocks lie over each other in the one file written -/
  image : KvCacheImage params (storeOf semantics os "ai_sim_target.dat")
    (storeOf semantics final.os "ai_sim_target.dat")
  others : ∀ path ∈ paths, path ≠ "ai_sim_target.dat" →
    storeOf semantics final.os path = storeOf semantics os path
  prefillOps : report.prefill.totalOps = params.prefillBlocks
  prefillBytes : report.prefill.totalBytes = params.prefillBlocks * prefillBlockSize
  decodeOps : report.decode.totalOps = params.decodeTokens
  decodeBytes : report.decode.totalBytes = params.decodeTokens * params.decodeBlockSize
  /-- the rate printed is of the bytes written unless no mebibyte was asked for -/
  prefillRate : report.prefillGbps = ratePerSecond report.prefill.totalBytes env.prefillSec ↔
    1 ≤ params.prefillMb

/-- A collector that recorded steps of one size counts them and their bytes. -/
theorem recordedAfter_totals {P : Type} {phase : WritePhase P MetricCollector} {latencyNs : ℕ → ℕ}
    (hrecord : phase.record = recordStep latencyNs) (size count : ℕ) :
    (phase.recordedAfter size count MetricCollector.init).totalOps = count ∧
      (phase.recordedAfter size count MetricCollector.init).totalBytes = count * size := by
  rw [recordedAfter_init hrecord]
  exact collected_totals count size latencyNs

/-- The volume printed is the volume written unless no mebibyte was asked for. -/
theorem prefillRate_iff (params : KvCacheParameters) (seconds : ℚ) :
    ratePerSecond (params.prefillMb * 1024 * 1024) seconds =
        ratePerSecond (params.prefillBlocks * prefillBlockSize) seconds ↔
      1 ≤ params.prefillMb := by
  have hpositive : atLeastNanosecond seconds ≠ 0 :=
    ne_of_gt (lt_of_lt_of_le (by norm_num) (le_max_right _ _))
  rw [ratePerSecond, ratePerSecond, div_left_inj' (by norm_num), div_left_inj' hpositive,
    Nat.cast_inj, KvCacheParameters.prefillBlocks, prefillBlockSize]
  omega

/-- On a reliable file system the simulation ends with its report, and leaves the three phases
lying over each other in its file. -/
theorem runAiKvCacheSimulation_leaves (semantics : FileSemantics F system.toOperatingSystem)
    (hreliable : semantics.Reliable paths) (hdistinct : Set.InjOn semantics.fileOf paths)
    (hpath : "ai_sim_target.dat" ∈ paths) (os : ω) (params : KvCacheParameters)
    (env : KvCacheEnvironment) (h : KvCacheSupported params env) :
    ∃ report final,
      runAiKvCacheSimulation (posixTargetAdapter system os) params env =
        ⟨.ok report, some final⟩ ∧
      KvCacheLeaves semantics paths os params env report final := by
  have hempty : PosixRepresents semantics paths (PosixDirectIOAdapter.init os)
      (storeOf semantics os) := ⟨represents_empty fun _ _ => rfl, rfl⟩
  obtain ⟨address, hmmap, haddress⟩ := h.prefillMmap
  obtain ⟨prefilled, hprefill, hstored⟩ :=
    prefill_run h hreliable hdistinct hpath os hempty haddress
  obtain ⟨pageAddress, hpageMmap, hpage⟩ := h.decodeMmap
  obtain ⟨decoded, hdecode, hpaged⟩ :=
    decode_run h hreliable hdistinct hpath os hstored.represents hpage
  obtain ⟨final, hcheckpoint, hfinal⟩ :=
    checkpoint_run h hreliable hdistinct hpath os hpaged.represents
  refine ⟨kvCacheReport params env prefilled.recorded decoded.recorded, final, ?_, ?_⟩
  · have hphases : kvCachePhases (posixTargetAdapter system os) params env
        (PosixDirectIOAdapter.init os) =
          (.ok (kvCacheReport params env prefilled.recorded decoded.recorded), final) := by
      simp only [kvCachePhases, hmmap, hprefill, hpageMmap, hdecode, hcheckpoint]
    change (⟨(kvCachePhases _ _ _ _).1, some (kvCachePhases _ _ _ _).2⟩ : KvCacheRun _) = _
    rw [hphases]
  · have himage : storeOf semantics final.os "ai_sim_target.dat" =
        kvCacheContent params (storeOf semantics os "ai_sim_target.dat") := by
      have hcontent := hfinal.represents.content _ hpath
      simp only [KvCacheParameters.decodePhase, KvCacheParameters.prefillPhase,
        KvCacheParameters.target, Function.update_self] at hcontent
      exact hcontent
    have hothers : ∀ path ∈ paths, path ≠ "ai_sim_target.dat" →
        storeOf semantics final.os path = storeOf semantics os path := by
      intro path hmem hne
      have hkept := hfinal.represents.content path hmem
      rw [Function.update_of_ne hne] at hkept
      exact hkept.trans ((Function.update_of_ne hne _ _).trans (Function.update_of_ne hne _ _))
    have hprefilled : prefilled.recorded.totalOps = params.prefillBlocks ∧
        prefilled.recorded.totalBytes = params.prefillBlocks * prefillBlockSize := by
      rw [hstored.recorded]
      exact recordedAfter_totals rfl prefillBlockSize params.prefillBlocks
    have hdecoded : decoded.recorded.totalOps = params.decodeTokens ∧
        decoded.recorded.totalBytes = params.decodeTokens * params.decodeBlockSize := by
      rw [hpaged.recorded]
      exact recordedAfter_totals rfl params.decodeBlockSize params.decodeTokens
    refine ⟨?_, hothers, hprefilled.1, hprefilled.2, hdecoded.1, hdecoded.2, ?_⟩
    · rw [himage]
      exact kvCacheContent_image params h.decodeBlockSize.1 _
    · have hreport : (kvCacheReport params env prefilled.recorded decoded.recorded).prefill =
          prefilled.recorded := rfl
      rw [hreport, hprefilled.2]
      exact prefillRate_iff params env.prefillSec

end Simulation

/-- A small simulation: two mebibytes of context, five tokens in pages of 16 KiB, and a checkpoint
over the first mebibyte. -/
def smallKvCache : KvCacheParameters := ⟨2, 5, 1, 16, "posix:///tmp/ai_sim_target.dat"⟩

/-- Surroundings that map every buffer at a page boundary. -/
def pageMaps : KvCacheEnvironment where
  prefillMmap := .ok 0x1000
  decodeMmap := .ok 0x200000
  poolMmap := fun number => .ok (0x400000 + number * 0x100000)
  prefillNs := fun _ => 1000
  decodeNs := fun _ => 1000
  prefillSec := 1
  decodeSec := 1
  ckptSec := 1

/-- The simulation runs to its end on an empty disk. -/
theorem runAiKvCacheSimulation_leaves_small :
    ∃ report final,
      runAiKvCacheSimulation (posixTargetAdapter (diskSystem fun _ length => length) Disk.empty)
          smallKvCache pageMaps = ⟨.ok report, some final⟩ ∧
        KvCacheLeaves (diskSemantics fun _ length => length) Set.univ Disk.empty smallKvCache
          pageMaps report final := by
  apply runAiKvCacheSimulation_leaves (diskSemantics fun _ length => length) diskSemantics_reliable
    Function.injective_id.injOn trivial Disk.empty smallKvCache pageMaps
  refine ⟨by decide, by norm_num [smallKvCache], by norm_num [smallKvCache], ⟨_, rfl, by decide⟩,
    ⟨_, rfl, by decide⟩, ?_⟩
  intro number _
  refine ⟨_, rfl, ?_⟩
  omega

end Steve.Usecases
