import Steve.Usecases.WritePhase

/-!
# Two loops that several use cases share

One loop writes zeroed pages from a pool around a region of ten mebibytes, the other one
mutated mebibyte blocks side by side. On a reliable file system the first one leaves its
region zeroed as far as it came, and the second one its blocks; writing again after a later
loop of the same kind changes nothing more.
-/

namespace Steve.Usecases

open Steve.Library
open Steve.Adapters
open Steve.Payload
open Steve.Validation

/-- The size of a bulk block. -/
def bulkBlockSize : ℕ := 1048576

/-- A loop of page writes around a region of ten mebibytes. -/
def pageRingPhase {C : Type} (target : TargetDescriptor) (record : ℕ → ℕ → C → C) :
    WritePhase BufferPool C where
  target := target
  offset := fun i => i * 4096 % 10485760
  payload := poolPayload
  record := record

/-- A loop of mutated mebibyte blocks. -/
def bulkPhase (target : TargetDescriptor) (latencyNs : ℕ → ℕ) :
    WritePhase (PySIMDPayloadMutator bulkBlockSize) MetricCollector where
  target := target
  offset := fun i => i * bulkBlockSize
  payload := mutatedPayload fun i mutator => mutator.applyEntropy 0 bulkBlockSize i
  record := recordStep latencyNs

/-- What a bulk block holds. -/
def bulkBlock (i : ℕ) : List Byte := seededBlock seedMask (bulkBlockSize / 8) bulkBlockSize (i + 1)

/-- A file whose first pages have been zeroed. -/
def ZeroedPages (pages : ℕ) (before after : List Byte) : Prop :=
  ∀ position, byteAt after position =
    if position < pages * 4096 then 0 else byteAt before position

/-- A file whose first blocks are bulk blocks. -/
def BulkBlocks (blocks : ℕ) (before after : List Byte) : Prop :=
  ∀ position, byteAt after position =
    if position < blocks * bulkBlockSize then
      byteAt (bulkBlock (position / bulkBlockSize)) (position % bulkBlockSize)
    else byteAt before position

/-- The longer of two zeroed prefixes is zeroed. -/
theorem ZeroedPages.trans {first second : ℕ} {before middle after : List Byte}
    (h : ZeroedPages first before middle) (h' : ZeroedPages second middle after) :
    ZeroedPages (max first second) before after := by
  intro position
  have hlonger : position < max first second * 4096 ↔
      position < first * 4096 ∨ position < second * 4096 := by
    rw [← Nat.mul_max_mul_right, lt_max_iff]
  rw [h', h]
  by_cases hsecond : position < second * 4096
  · rw [if_pos hsecond, if_pos (hlonger.mpr (Or.inr hsecond))]
  · by_cases hfirst : position < first * 4096
    · rw [if_neg hsecond, if_pos hfirst, if_pos (hlonger.mpr (Or.inl hfirst))]
    · rw [if_neg hsecond, if_neg hfirst,
        if_neg (mt hlonger.mp (not_or.mpr ⟨hfirst, hsecond⟩))]

/-- Writing the same bulk blocks again changes nothing more. -/
theorem BulkBlocks.trans {blocks : ℕ} {before middle after : List Byte}
    (h : BulkBlocks blocks before middle) (h' : BulkBlocks blocks middle after) :
    BulkBlocks blocks before after := by
  intro position
  rw [h', h]
  split <;> rfl

/-- The pages lie around the region. -/
theorem pageRing_offset (i : ℕ) : i * 4096 % 10485760 = i % 2560 * 4096 :=
  Nat.mul_mod_mul_right 4096 i 2560

/-- Page writes zero the region as far as they reach. -/
theorem zeroedPages_writeBlocks (count : ℕ) (before : List Byte) :
    ZeroedPages (min count 2560) before (writeBlocks 4096 (fun i => i % 2560)
      (fun _ => List.replicate 4096 0#8) before count) := by
  intro position
  rw [byteAt_writeBlocks_const (by decide) List.length_replicate]
  have hplaces : (∃ i < count, i % 2560 = position / 4096) ↔
      position < min count 2560 * 4096 := by
    rw [← Nat.div_lt_iff_lt_mul (by decide)]
    constructor
    · rintro ⟨i, hi, hplace⟩
      omega
    · intro hplace
      exact ⟨position / 4096, by omega, by omega⟩
  simp only [hplaces]
  split
  · exact byteAt_zeros _ _
  · rfl

/-- Bulk writes lie side by side. -/
theorem bulkBlocks_writeBlocks (count : ℕ) (before : List Byte) :
    BulkBlocks count before (writeBlocks bulkBlockSize id bulkBlock before count) := by
  intro position
  exact byteAt_writeBlocks_sideBySide (by decide) (fun _ _ => seededBlock_length _ _ _ _) position

/-- A pool supplies the pages. -/
theorem pageRing_supplies {C : Type} (target : TargetDescriptor) (record : ℕ → ℕ → C → C)
    (bufferCount count : ℕ) :
    (pageRingPhase target record).Supplies 4096 count (fun _ => List.replicate 4096 0#8)
      fun _ pool => pool.Serves bufferCount 4096 := by
  apply pool_supplies (fun _ _ => rfl) (by decide) (by decide)
  intro i _
  change i * 4096 % 10485760 % 4096 = 0
  rw [pageRing_offset, Nat.mul_mod_left]

/-- A mutator supplies the bulk blocks. -/
theorem bulk_supplies (target : TargetDescriptor) (latencyNs : ℕ → ℕ) {count address : ℕ}
    (hseeds : count ≤ 2 ^ 64) (haddress : address % 4096 = 0) :
    (bulkPhase target latencyNs).Supplies bulkBlockSize count bulkBlock fun i mutator =>
      mutator.WholeBlock address (seededBlock seedMask (bulkBlockSize / 8) bulkBlockSize i) := by
  have hoffset : ∀ i < count, (bulkPhase target latencyNs).offset i % 4096 = 0 := by
    intro i _
    change i * (256 * 4096) % 4096 = 0
    rw [← Nat.mul_assoc, Nat.mul_mod_left]
  exact mutator_supplies rfl (fun i hi _ hmutator =>
    PySIMDPayloadMutator.applyEntropy_seededBlock (hi.trans_le hseeds) hmutator)
    haddress (by decide) (by decide) hoffset

section Loops

variable {ω F : Type} [DecidableEq F] {system : PosixSystem ω}
  {semantics : FileSemantics F system.toOperatingSystem} {paths : Set String}

/-- A loop that kept every file but its own. -/
def OthersKept (target : TargetDescriptor) (before after : String → List Byte) : Prop :=
  ∀ path, path ≠ target.resourcePath → after path = before path

/-- A loop of page writes makes all of them. -/
theorem pageRing_run {C : Type} (hreliable : semantics.Reliable paths)
    (hdistinct : Set.InjOn semantics.fileOf paths) {target : TargetDescriptor}
    (hpath : target.resourcePath ∈ paths) (os : ω) (record : ℕ → ℕ → C → C)
    {bufferCount : ℕ} (count : ℕ) {state : PhaseState (PosixDirectIOAdapter ω) BufferPool C}
    {store : String → List Byte} (hstore : PosixRepresents semantics paths state.adapter store)
    (hserves : state.source.Serves bufferCount 4096) :
    ∃ final after,
      (pageRingPhase target record).run (posixTargetAdapter system os) count state =
        (none, final) ∧
      PosixRepresents semantics paths final.adapter after ∧
      ZeroedPages (min count 2560) (store target.resourcePath) (after target.resourcePath) ∧
      OthersKept target store after ∧ final.source.Serves bufferCount 4096 ∧
      final.recorded = (pageRingPhase target record).recordedAfter 4096 count state.recorded := by
  obtain ⟨final, hrun, hleaves, hready⟩ : ∃ final,
      (pageRingPhase target record).run (posixTargetAdapter system os) count state =
        (none, final) ∧
      (pageRingPhase target record).Leaves semantics paths 4096 (fun i => i % 2560)
        (fun _ => List.replicate 4096 0#8) store state.recorded count final ∧
      final.source.Serves bufferCount 4096 :=
    WritePhase.run_posix_ready hreliable hdistinct hpath
      (pageRing_supplies target record bufferCount count) (fun i _ => pageRing_offset i) os hstore
      hserves
  refine ⟨final, _, hrun, hleaves.represents, ?_, ?_, hready, hleaves.recorded⟩
  · change ZeroedPages _ _ (Function.update store target.resourcePath _ target.resourcePath)
    rw [Function.update_self]
    exact zeroedPages_writeBlocks count _
  · intro path hne
    exact Function.update_of_ne hne _ _

/-- A loop of bulk writes makes all of them. -/
theorem bulk_run (hreliable : semantics.Reliable paths)
    (hdistinct : Set.InjOn semantics.fileOf paths) {target : TargetDescriptor}
    (hpath : target.resourcePath ∈ paths) (os : ω) (latencyNs : ℕ → ℕ) {count address : ℕ}
    (hseeds : count ≤ 2 ^ 64) (haddress : address % 4096 = 0)
    {adapter : PosixDirectIOAdapter ω} {store : String → List Byte}
    (hstore : PosixRepresents semantics paths adapter store) :
    ∃ final after,
      (bulkPhase target latencyNs).run (posixTargetAdapter system os) count
        ⟨adapter, .fresh bulkBlockSize address, MetricCollector.init⟩ = (none, final) ∧
      PosixRepresents semantics paths final.adapter after ∧
      BulkBlocks count (store target.resourcePath) (after target.resourcePath) ∧
      OthersKept target store after ∧
      final.recorded = collected count bulkBlockSize latencyNs := by
  obtain ⟨final, hrun, hleaves⟩ : ∃ final,
      (bulkPhase target latencyNs).run (posixTargetAdapter system os) count
        ⟨adapter, .fresh bulkBlockSize address, MetricCollector.init⟩ = (none, final) ∧
      (bulkPhase target latencyNs).Leaves semantics paths bulkBlockSize id bulkBlock store
        MetricCollector.init count final :=
    WritePhase.run_posix hreliable hdistinct hpath (bulk_supplies target latencyNs hseeds haddress)
      (fun _ _ => rfl) os hstore (PySIMDPayloadMutator.fresh_seededBlock _ _ _ _)
  refine ⟨final, _, hrun, hleaves.represents, ?_, ?_,
    hleaves.recorded.trans (recordedAfter_init rfl bulkBlockSize count)⟩
  · change BulkBlocks _ _ (Function.update store target.resourcePath _ target.resourcePath)
    rw [Function.update_self]
    exact bulkBlocks_writeBlocks count _
  · intro path hne
    exact Function.update_of_ne hne _ _

end Loops

end Steve.Usecases
