import Steve.Adapters.BlockWrites
import Steve.Adapters.FileRefinement
import Steve.Adapters.ObjectStores
import Steve.Library.RangeLoop
import Steve.Payload.BufferPool
import Steve.Payload.SeededBlocks
import Steve.Validation.CollectorHistory

/-!
# The write loops of the use cases

Every use case writes in loops of one shape: take the next payload from a pool or a mutator,
write it at the step's offset, and record the answer. On a reliable file system under the
direct I/O adapter such a loop makes all its writes, and the file then holds its blocks
written one after the other.
-/

namespace Steve.Usecases

open Steve.Library
open Steve.Adapters
open Steve.Payload
open Steve.Validation

/-- The variables of a write loop: the adapter, where payloads come from, what is recorded. -/
structure PhaseState (σ P C : Type) where
  adapter : σ
  source : P
  recorded : C

/-- What distinguishes one write loop from another. -/
structure WritePhase (P C : Type) where
  target : TargetDescriptor
  offset : ℕ → ℕ
  /-- the payload of a step, or the exception that making it raises -/
  payload : ℕ → P → Except PyException (DirectBuffer (List Byte)) × P
  /-- record the bytes a step has written -/
  record : ℕ → ℕ → C → C

namespace WritePhase

variable {σ P C : Type}

/-- One step of a write loop. -/
def body (phase : WritePhase P C) (adapter : TargetAdapter σ) (step : ℕ)
    (state : PhaseState σ P C) : Option PyException × PhaseState σ P C :=
  match phase.payload step state.source with
  | (.error e, source) => (some e, { state with source := source })
  | (.ok payload, source) =>
    match adapter.write state.adapter phase.target (phase.offset step) payload with
    | (.error e, next) => (some e, ⟨next, source, state.recorded⟩)
    | (.ok written, next) => (none, ⟨next, source, phase.record step written state.recorded⟩)

/-- A write loop of some steps. -/
def run (phase : WritePhase P C) (adapter : TargetAdapter σ) (count : ℕ)
    (state : PhaseState σ P C) : Option PyException × PhaseState σ P C :=
  forRange (phase.body adapter) count state

/-- What is recorded of steps that write blocks of one size. -/
def recordedAfter (phase : WritePhase P C) (size count : ℕ) (initial : C) : C :=
  (List.range count).foldl (fun recorded step => phase.record step size recorded) initial

/-- One more step is recorded last. -/
theorem recordedAfter_succ (phase : WritePhase P C) (size count : ℕ) (initial : C) :
    phase.recordedAfter size (count + 1) initial =
      phase.record count size (phase.recordedAfter size count initial) := by
  rw [recordedAfter, List.range_succ, List.foldl_append]
  rfl

/-- The payloads a source makes: blocks of one size on page-aligned buffers. -/
structure Supplies (phase : WritePhase P C) (size count : ℕ) (data : ℕ → List Byte)
    (Ready : ℕ → P → Prop) : Prop where
  step : ∀ i < count, ∀ source, Ready i source → ∃ payload next,
    phase.payload i source = (.ok payload, next) ∧ Ready (i + 1) next ∧
      payload.view = data i ∧ AlignedTransfer (phase.offset i) payload
  length : ∀ i < count, (data i).length = size

variable {ω F : Type} [DecidableEq F] {system : PosixSystem ω}
  {semantics : FileSemantics F system.toOperatingSystem} {paths : Set String}

/-- A step over the direct I/O adapter writes its block over what the file holds, and records
it. -/
theorem body_writes (hreliable : semantics.Reliable paths)
    (hdistinct : Set.InjOn semantics.fileOf paths) {phase : WritePhase P C}
    (hpath : phase.target.resourcePath ∈ paths) {size count : ℕ} {data : ℕ → List Byte}
    {Ready : ℕ → P → Prop} (hsupplies : phase.Supplies size count data Ready) (os : ω)
    {store : String → List Byte} {i : ℕ} (hi : i < count)
    {state : PhaseState (PosixDirectIOAdapter ω) P C}
    (hstore : PosixRepresents semantics paths state.adapter store) (hready : Ready i state.source) :
    ∃ next, phase.body (posixTargetAdapter system os) i state = (none, next) ∧
      PosixRepresents semantics paths next.adapter
        (Function.update store phase.target.resourcePath
          (writeAt (store phase.target.resourcePath) (phase.offset i) (data i))) ∧
      next.recorded = phase.record i size state.recorded ∧ Ready (i + 1) next.source := by
  obtain ⟨payload, source, hpayload, hnext, hview, haligned⟩ :=
    hsupplies.step i hi state.source hready
  obtain ⟨adapter, hwrite, hrepresents⟩ := hstore.write hreliable hdistinct hpath haligned
  rw [hview] at hrepresents hwrite
  refine ⟨⟨adapter, source, phase.record i (data i).length state.recorded⟩, ?_, hrepresents, ?_,
    hnext⟩
  · simp only [body, hpayload, posixTargetAdapter, hwrite]
  · rw [hsupplies.length i hi]

/-- What a write loop over the direct I/O adapter leaves. -/
structure Leaves (semantics : FileSemantics F system.toOperatingSystem) (paths : Set String)
    (phase : WritePhase P C) (size : ℕ) (place : ℕ → ℕ) (data : ℕ → List Byte)
    (store : String → List Byte) (initial : C) (count : ℕ)
    (final : PhaseState (PosixDirectIOAdapter ω) P C) : Prop where
  represents : PosixRepresents semantics paths final.adapter
    (Function.update store phase.target.resourcePath
      (writeBlocks size place data (store phase.target.resourcePath) count))
  recorded : final.recorded = phase.recordedAfter size count initial

/-- A write loop over the direct I/O adapter makes all its writes, and its source is ready for
more. -/
theorem run_posix_ready (hreliable : semantics.Reliable paths)
    (hdistinct : Set.InjOn semantics.fileOf paths) {phase : WritePhase P C}
    (hpath : phase.target.resourcePath ∈ paths) {size count : ℕ} {place : ℕ → ℕ}
    {data : ℕ → List Byte} {Ready : ℕ → P → Prop}
    (hsupplies : phase.Supplies size count data Ready)
    (hoffset : ∀ i < count, phase.offset i = place i * size) (os : ω)
    {store : String → List Byte} {state : PhaseState (PosixDirectIOAdapter ω) P C}
    (hstore : PosixRepresents semantics paths state.adapter store)
    (hready : Ready 0 state.source) :
    ∃ final, phase.run (posixTargetAdapter system os) count state = (none, final) ∧
      phase.Leaves semantics paths size place data store state.recorded count final ∧
      Ready count final.source := by
  let Inv (i : ℕ) (current : PhaseState (PosixDirectIOAdapter ω) P C) : Prop :=
    phase.Leaves semantics paths size place data store state.recorded i current ∧
      Ready i current.source
  have hstart : Inv 0 state := by
    refine ⟨⟨?_, rfl⟩, hready⟩
    rw [writeBlocks, Function.update_eq_self]
    exact hstore
  have hstep : ∀ i < count, ∀ current, Inv i current →
      ∃ next, phase.body (posixTargetAdapter system os) i current = (none, next) ∧
        Inv (i + 1) next := by
    rintro i hi current ⟨hleaves, hcurrent⟩
    obtain ⟨next, hbody, hrepresents, hrecorded, hnext⟩ :=
      body_writes hreliable hdistinct hpath hsupplies os hi hleaves.represents hcurrent
    rw [Function.update_idem, Function.update_self, hoffset i hi] at hrepresents
    refine ⟨next, hbody, ⟨hrepresents, ?_⟩, hnext⟩
    rw [hrecorded, hleaves.recorded, recordedAfter_succ]
  exact forRange_spec Inv hstep hstart

/-- A write loop over the direct I/O adapter makes all its writes. -/
theorem run_posix (hreliable : semantics.Reliable paths)
    (hdistinct : Set.InjOn semantics.fileOf paths) {phase : WritePhase P C}
    (hpath : phase.target.resourcePath ∈ paths) {size count : ℕ} {place : ℕ → ℕ}
    {data : ℕ → List Byte} {Ready : ℕ → P → Prop}
    (hsupplies : phase.Supplies size count data Ready)
    (hoffset : ∀ i < count, phase.offset i = place i * size) (os : ω)
    {store : String → List Byte} {state : PhaseState (PosixDirectIOAdapter ω) P C}
    (hstore : PosixRepresents semantics paths state.adapter store)
    (hready : Ready 0 state.source) :
    ∃ final, phase.run (posixTargetAdapter system os) count state = (none, final) ∧
      phase.Leaves semantics paths size place data store state.recorded count final := by
  obtain ⟨final, hrun, hleaves, -⟩ :=
    run_posix_ready hreliable hdistinct hpath hsupplies hoffset os hstore hready
  exact ⟨final, hrun, hleaves⟩

/-- A write loop over an adapter that accepts its pages makes all its writes. -/
theorem run_acceptsPages {adapter : TargetAdapter σ} (haccepts : AcceptsPages adapter)
    {phase : WritePhase P C} {size count : ℕ} {data : ℕ → List Byte} {Ready : ℕ → P → Prop}
    (hsupplies : phase.Supplies size count data Ready) {state : PhaseState σ P C}
    (hready : Ready 0 state.source) :
    ∃ final, phase.run adapter count state = (none, final) ∧
      final.recorded = phase.recordedAfter size count state.recorded ∧
      Ready count final.source := by
  let Inv (i : ℕ) (current : PhaseState σ P C) : Prop :=
    current.recorded = phase.recordedAfter size i state.recorded ∧ Ready i current.source
  have hstep : ∀ i < count, ∀ current, Inv i current →
      ∃ next, phase.body adapter i current = (none, next) ∧ Inv (i + 1) next := by
    rintro i hi current ⟨hrecorded, hcurrent⟩
    obtain ⟨payload, source, hpayload, hnext, hview, haligned⟩ :=
      hsupplies.step i hi current.source hcurrent
    obtain ⟨next, hwrite⟩ := haccepts current.adapter phase.target (phase.offset i) payload haligned
    rw [hview, hsupplies.length i hi] at hwrite
    refine ⟨⟨next, source, phase.record i size current.recorded⟩, ?_, ?_, hnext⟩
    · simp only [body, hpayload, hwrite]
    · rw [recordedAfter_succ, hrecorded]
  exact forRange_spec Inv hstep ⟨rfl, hready⟩

end WritePhase

section Sources

/-- A pool's next buffer, by the step's number around the ring. -/
def poolPayload (step : ℕ) (pool : BufferPool) :
    Except PyException (DirectBuffer (List Byte)) × BufferPool :=
  (pool.acquire (step % pool.bufferCount), pool)

/-- A mutator's whole block, mutated with the step as its seed. -/
def mutatedPayload {size : ℕ}
    (mutate : ℕ → PySIMDPayloadMutator size →
      Except PyException (DirectBuffer (MemoryView size)) × PySIMDPayloadMutator size)
    (step : ℕ) (mutator : PySIMDPayloadMutator size) :
    Except PyException (DirectBuffer (List Byte)) × PySIMDPayloadMutator size :=
  match mutate step mutator with
  | (.error e, next) => (.error e, next)
  | (.ok buf, next) => (.ok (next.contents buf), next)

/-- A pool of pages supplies zeroed blocks, whichever buffers a loop takes. -/
theorem pool_supplies {C : Type} {phase : WritePhase BufferPool C} {index : ℕ → BufferPool → ℕ}
    (hpayload : ∀ step pool, phase.payload step pool = (pool.acquire (index step pool), pool))
    {bufferCount size count : ℕ} (hsize : 0 < size)
    (hpages : size % 4096 = 0) (hoffset : ∀ i < count, phase.offset i % 4096 = 0) :
    phase.Supplies size count (fun _ => List.replicate size 0#8)
      fun _ pool => pool.Serves bufferCount size where
  step := by
    intro i hi pool hserves
    obtain ⟨buffer, hbuffer, hzero⟩ := hserves.acquire (index i pool)
    refine ⟨buffer, pool, by rw [hpayload, hbuffer], hserves, hzero.view, ?_⟩
    refine ⟨hzero.address, ?_, hoffset i hi, ?_, ?_⟩
    · rw [hzero.view, List.length_replicate]
      exact hpages
    · rw [hzero.view, List.length_replicate]
      exact hsize
    · rw [hzero.view, List.length_replicate]
      exact hzero.size
  length := fun _ _ => List.length_replicate

/-- A mutator on pages whose steps fold masks into its whole block supplies seeded blocks. -/
theorem mutator_supplies {C : Type} {size address count words : ℕ} {mask : ℕ → BitVec 64}
    {mutate : ℕ → PySIMDPayloadMutator size →
      Except PyException (DirectBuffer (MemoryView size)) × PySIMDPayloadMutator size}
    {phase : WritePhase (PySIMDPayloadMutator size) C}
    (hpayload : phase.payload = mutatedPayload mutate)
    (hmutate : ∀ i < count, ∀ mutator : PySIMDPayloadMutator size,
      mutator.WholeBlock address (seededBlock mask words size i) →
        ∃ next : PySIMDPayloadMutator size, mutate i mutator =
            (.ok (PySIMDPayloadMutator.wholeBuffer size address), next) ∧
          next.WholeBlock address (seededBlock mask words size (i + 1)))
    (haddress : address % 4096 = 0) (hsize : 0 < size) (hpages : size % 4096 = 0)
    (hoffset : ∀ i < count, phase.offset i % 4096 = 0) :
    phase.Supplies size count (fun i => seededBlock mask words size (i + 1))
      fun i mutator => mutator.WholeBlock address (seededBlock mask words size i) where
  step := by
    intro i hi mutator hblock
    obtain ⟨next, hnext, hafter⟩ := hmutate i hi mutator hblock
    refine ⟨⟨address, size, next.buffer⟩, next, ?_, hafter, hafter.buffer, ?_⟩
    · rw [hpayload, mutatedPayload, hnext]
      simp only [PySIMDPayloadMutator.contents_wholeBuffer]
    · refine ⟨?_, ?_, hoffset i hi, ?_, ?_⟩
      · change (address : ℤ) % 4096 = 0
        omega
      · exact next.bufferLength.symm ▸ hpages
      · exact next.bufferLength.symm ▸ hsize
      · exact congrArg Nat.cast next.bufferLength.symm
  length := fun _ _ => seededBlock_length _ _ _ _

end Sources

/-- A measured duration, which is never zero. -/
def atLeastNanosecond (seconds : ℚ) : ℚ := max seconds (1 / 1000000000)

/-- Gigabits a second, as the reports print them. -/
def ratePerSecond (bytes : ℕ) (seconds : ℚ) : ℚ :=
  (bytes * 8 : ℕ) / atLeastNanosecond seconds / 1000000000

/-- Record a latency and a byte count, as the loops with one collector do. -/
def recordStep (latencyNs : ℕ → ℕ) (step written : ℕ) (collector : MetricCollector) :
    MetricCollector :=
  (collector.recordLatency (latencyNs step)).recordBytes written

/-- A collector that has recorded latencies of operations of one size. -/
def historyOf (size : ℕ) (latencies : List ℕ) : MetricCollector :=
  (MetricCollector.init.recordAll latencies).recordBytes (latencies.length * size)

/-- No operations are a history as well. -/
theorem historyOf_nil (size : ℕ) : historyOf size [] = MetricCollector.init := by
  rw [historyOf, List.length_nil, Nat.zero_mul]
  rfl

/-- One more operation is recorded last. -/
theorem historyOf_concat (size : ℕ) (latencies : List ℕ) (latencyNs : ℕ) :
    historyOf size (latencies ++ [latencyNs]) =
      ((historyOf size latencies).recordLatency latencyNs).recordBytes size := by
  rw [historyOf, MetricCollector.recordAll_concat, List.length_append, List.length_singleton,
    Nat.succ_mul]
  simp only [historyOf, MetricCollector.recordBytes, MetricCollector.recordLatency, Nat.add_assoc]
  rfl

/-- A loop adds its latencies to the history of each collector it records into. -/
theorem recordedAfter_part {P C : Type} {phase : WritePhase P C} (part : C → MetricCollector)
    {latencyNs : ℕ → ℕ}
    (hrecord : ∀ step written recorded, part (phase.record step written recorded) =
      recordStep latencyNs step written (part recorded))
    (size count : ℕ) {initial : C} {earlier : List ℕ}
    (hinitial : part initial = historyOf size earlier) :
    part (phase.recordedAfter size count initial) =
      historyOf size (earlier ++ (List.range count).map latencyNs) := by
  induction count with
  | zero =>
    rw [List.range_zero, List.map_nil, List.append_nil]
    exact hinitial
  | succ count ih =>
    rw [WritePhase.recordedAfter_succ, hrecord, ih, List.range_succ, List.map_append,
      List.map_singleton, ← List.append_assoc, historyOf_concat]
    rfl

/-- A loop keeps what its records keep. -/
theorem recordedAfter_kept {P C D : Type} {phase : WritePhase P C} (part : C → D)
    (hrecord : ∀ step written recorded,
      part (phase.record step written recorded) = part recorded)
    (size count : ℕ) (initial : C) :
    part (phase.recordedAfter size count initial) = part initial := by
  induction count with
  | zero => rfl
  | succ count ih => rw [WritePhase.recordedAfter_succ, hrecord, ih]

/-- A collector that has recorded the steps of one loop. -/
def collected (count size : ℕ) (latencyNs : ℕ → ℕ) : MetricCollector :=
  historyOf size ((List.range count).map latencyNs)

/-- A loop that records into one fresh collector has recorded its steps and no others. -/
theorem recordedAfter_init {P : Type} {phase : WritePhase P MetricCollector}
    {latencyNs : ℕ → ℕ} (hrecord : phase.record = recordStep latencyNs) (size count : ℕ) :
    phase.recordedAfter size count MetricCollector.init = collected count size latencyNs := by
  have hsteps : ∀ step written recorded, phase.record step written recorded =
      recordStep latencyNs step written recorded := by
    intro step written recorded
    rw [hrecord]
  exact recordedAfter_part id hsteps size count (historyOf_nil size).symm

/-- A collector counts its operations and their bytes. -/
theorem historyOf_totals (size : ℕ) (latencies : List ℕ) :
    (historyOf size latencies).totalOps = latencies.length ∧
      (historyOf size latencies).totalBytes = latencies.length * size := by
  constructor
  · change (MetricCollector.init.recordAll latencies).totalOps = _
    rw [MetricCollector.recordAll_totalOps]
    exact Nat.zero_add _
  · change (MetricCollector.init.recordAll latencies).totalBytes + _ = _
    rw [MetricCollector.recordAll_totalBytes]
    exact Nat.zero_add _

/-- The collector of one loop counts its steps and their bytes. -/
theorem collected_totals (count size : ℕ) (latencyNs : ℕ → ℕ) :
    (collected count size latencyNs).totalOps = count ∧
      (collected count size latencyNs).totalBytes = count * size := by
  have htotals := historyOf_totals size ((List.range count).map latencyNs)
  rw [List.length_map, List.length_range] at htotals
  exact htotals

end Steve.Usecases
