import Steve.Emulator.NodeWrites
import Steve.Library.ConsecutiveXor

/-!
# When the blocks of an emulated worker repeat

Each operation mutates the block that the one before it left, so a block carries the masks of
all seeds so far, and two blocks are equal when the masks in between cancel. The masks of four
consecutive seeds cancel as soon as the first of them is even, which no run of six operations
avoids; one mask is zero, and three masks cancel next to it.
-/

namespace Steve.Emulator

open Steve.Library
open Steve.Orchestrator (WorkerShardSpec clusterShards)
open Steve.Payload

/-- The masks of later seeds are folded from the first of them on. -/
theorem foldedMask_add (seed first second : ℕ) :
    foldedMask seed (first + second) =
      foldedMask seed first ^^^ foldedMask (seed + first) second := by
  induction second with
  | zero => exact (BitVec.xor_zero).symm
  | succ second ih =>
    rw [← Nat.add_assoc, foldedMask, ih, foldedMask, BitVec.xor_assoc, Nat.add_assoc]

/-- What the fixed patterns of so many masks fold to: they cancel in pairs. -/
def foldedPattern (count : ℕ) : ℕ := if count % 2 = 0 then 0 else 0x5555555555555555

/-- One more mask adds the pattern once more. -/
theorem foldedPattern_succ (count : ℕ) :
    foldedPattern (count + 1) = foldedPattern count ^^^ 0x5555555555555555 := by
  unfold foldedPattern
  by_cases h : count % 2 = 0
  · rw [if_pos h, if_neg (by omega), Nat.zero_xor]
  · rw [if_neg h, if_pos (by omega), Nat.xor_self]

/-- Masks fold to their seeds and their patterns, each folded apart. -/
theorem foldedMask_eq (seed count : ℕ) :
    foldedMask seed count =
      BitVec.ofNat 64 (consecutiveXor seed count ^^^ foldedPattern count) := by
  induction count with
  | zero => simp [foldedMask, consecutiveXor, foldedPattern]
  | succ count ih =>
    rw [foldedMask, ih, seedMask, ← BitVec.ofNat_xor, consecutiveXor, foldedPattern_succ]
    congr 1
    ac_rfl

/-- The masks of some 64-bit seeds cancel exactly when the seeds fold to their patterns. -/
theorem foldedMask_eq_zero_iff {seed count : ℕ} (h : seed + count ≤ 2 ^ 64) :
    foldedMask seed count = 0#64 ↔ consecutiveXor seed count = foldedPattern count := by
  have hpattern : foldedPattern count < 2 ^ 64 := by
    unfold foldedPattern
    split <;> decide
  have hlt : consecutiveXor seed count ^^^ foldedPattern count < 2 ^ 64 :=
    Nat.xor_lt_two_pow (consecutiveXor_lt h) hpattern
  rw [foldedMask_eq, ← BitVec.toNat_inj, BitVec.toNat_ofNat, Nat.mod_eq_of_lt hlt,
    BitVec.toNat_ofNat, Nat.zero_mod, Nat.xor_eq_zero_iff]

/-- Two blocks of a run are equal exactly when the masks in between cancel. -/
theorem nodeBlock_eq_iff {size : ℕ} (hpos : 0 < size) (hwords : 8 ∣ size) (seed first later : ℕ) :
    nodeBlock seed size first = nodeBlock seed size (first + later) ↔
      foldedMask (seed + first) later = 0#64 := by
  have hmasks : nodeBlock seed size first = nodeBlock seed size (first + later) ↔
      foldedMask seed first = foldedMask seed (first + later) :=
    ⟨maskedBlock_injective hpos hwords, fun h => by rw [nodeBlock, h, nodeBlock]⟩
  rw [hmasks, foldedMask_add, eq_comm]
  constructor
  · intro h
    exact BitVec.xor_right_inj (foldedMask seed first) |>.mp (h.trans (BitVec.xor_zero).symm)
  · intro h
    rw [h, BitVec.xor_zero]

section Cancelling

variable {seed : ℕ}

/-- One mask is zero. -/
theorem foldedMask_one_eq_zero_iff (h : seed + 1 ≤ 2 ^ 64) :
    foldedMask seed 1 = 0#64 ↔ seed = 0x5555555555555555 := by
  rw [foldedMask_eq_zero_iff h, consecutiveXor_one]
  rfl

/-- The masks of two neighbours never cancel. -/
theorem foldedMask_two_ne_zero (h : seed + 2 ≤ 2 ^ 64) : foldedMask seed 2 ≠ 0#64 :=
  mt (foldedMask_eq_zero_iff h).mp (consecutiveXor_two_ne_zero seed)

/-- The masks of three neighbours cancel right before the seed whose mask is zero. -/
theorem foldedMask_three_eq_zero_iff (h : seed + 3 ≤ 2 ^ 64) :
    foldedMask seed 3 = 0#64 ↔ seed + 3 = 0x5555555555555555 := by
  rw [foldedMask_eq_zero_iff h]
  exact consecutiveXor_three_eq_iff seed (by decide)

/-- The masks of four neighbours cancel exactly when the first seed is even. -/
theorem foldedMask_four_eq_zero_iff (h : seed + 4 ≤ 2 ^ 64) :
    foldedMask seed 4 = 0#64 ↔ Even seed := by
  rw [foldedMask_eq_zero_iff h]
  exact consecutiveXor_four_eq_zero_iff seed

end Cancelling

/-- The numbers of operations that keep the blocks of a run pairwise different. -/
structure DistinctOperations (seed count : ℕ) : Prop where
  /-- at most four, or five from an even seed on -/
  few : count ≤ 4 ∨ count = 5 ∧ Even seed
  /-- no operation after the first has the seed whose mask is zero -/
  nonzeroMask : ¬ (seed < 0x5555555555555555 ∧ 0x5555555555555555 < seed + count)
  /-- the three seeds before that one are not all used after the first operation -/
  threeBefore : ¬ (seed + 4 ≤ 0x5555555555555555 ∧ 0x5555555555555555 ≤ seed + count)

/-- A run of six operations has the masks of four seeds from an even one on after its first,
and so has a run of five from an odd seed on. -/
theorem few_of_not_cancelling {seed count : ℕ} (hcount : seed + count ≤ 2 ^ 64)
    (h : ∀ first later, 0 < first → 0 < later → first + later ≤ count →
      foldedMask (seed + first) later ≠ 0#64) : count ≤ 4 ∨ count = 5 ∧ Even seed := by
  by_contra hmany
  rw [not_or, not_and_or] at hmany
  have hfour (first : ℕ) (hfirst : 0 < first) (hin : first + 4 ≤ count) :
      ¬ Even (seed + first) := fun heven =>
    h first 4 hfirst (by decide) hin ((foldedMask_four_eq_zero_iff (by omega)).mpr heven)
  have hodd : ¬ Even (seed + 1) := hfour 1 (by decide) (by omega)
  rw [Nat.even_add_one, not_not] at hodd
  have hsix : 2 + 4 ≤ count := by
    have hfive : count ≠ 5 := fun hfive => hmany.2.elim (absurd hfive) (absurd hodd)
    omega
  exact hfour 2 (by decide) hsix (hodd.add even_two)

/-- No masks after the first operation cancel exactly when the operations are few enough and
keep clear of the zero mask. -/
theorem foldedMasks_ne_zero_iff {seed count : ℕ} (hcount : seed + count ≤ 2 ^ 64) :
    (∀ first later, 0 < first → 0 < later → first + later ≤ count →
        foldedMask (seed + first) later ≠ 0#64) ↔ DistinctOperations seed count := by
  constructor
  · intro h
    refine ⟨few_of_not_cancelling hcount h, ?_, ?_⟩
    · rintro ⟨hbefore, hafter⟩
      refine h (0x5555555555555555 - seed) 1 (by omega) (by decide) (by omega) ?_
      exact (foldedMask_one_eq_zero_iff (by omega)).mpr (by omega)
    · rintro ⟨hbefore, hafter⟩
      refine h (0x5555555555555555 - 3 - seed) 3 (by omega) (by decide) (by omega) ?_
      exact (foldedMask_three_eq_zero_iff (by omega)).mpr (by omega)
  · intro h first later hfirst hlater hin hzero
    have hfew := h.few
    have hone := h.nonzeroMask
    have hthree := h.threeBefore
    obtain rfl | rfl | rfl | rfl : later = 1 ∨ later = 2 ∨ later = 3 ∨ later = 4 := by omega
    · rw [foldedMask_one_eq_zero_iff (by omega)] at hzero
      omega
    · exact foldedMask_two_ne_zero (by omega) hzero
    · rw [foldedMask_three_eq_zero_iff (by omega)] at hzero
      omega
    · rw [foldedMask_four_eq_zero_iff (by omega)] at hzero
      obtain ⟨rfl, heven⟩ : first = 1 ∧ Even seed := by
        refine ⟨by omega, (hfew.resolve_left (by omega)).2⟩
      rw [Nat.even_add_one] at hzero
      exact hzero heven

/-- The blocks a run hands to the operating system to be written. -/
def blocksWritten (run : NodeRun) : List (List Byte) :=
  run.attempted.map fun call => call.payload.view

section Run

variable (nodeId : String) (coreId : ℕ) (spec : WorkerShardSpec) (targetPath : String)
  (env : NodeEnvironment)

/-- Block `k` of a run carries the masks of `k + 1` seeds. -/
theorem blocksWritten_eq {count : ℕ}
    (hcount : (blocksWritten (runSimulatedNodeWorker nodeId coreId spec targetPath
      env)).length = count) :
    blocksWritten (runSimulatedNodeWorker nodeId coreId spec targetPath env) =
      (List.range count).map fun k => nodeBlock spec.seed spec.blockSizeBytes (k + 1) := by
  obtain ⟨address, hattempted⟩ := run_attempted spec env nodeId coreId targetPath
  rw [blocksWritten, List.length_map] at hcount
  rw [blocksWritten, hattempted, hcount, List.map_map]
  rfl

/-- The blocks of a run are pairwise different exactly when no masks after the first operation
cancel. -/
theorem blocks_nodup_iff {count : ℕ}
    (hcount : (blocksWritten (runSimulatedNodeWorker nodeId coreId spec targetPath
      env)).length = count)
    (hpos : 0 < spec.blockSizeBytes) (hwords : 8 ∣ spec.blockSizeBytes) :
    (blocksWritten (runSimulatedNodeWorker nodeId coreId spec targetPath env)).Nodup ↔
      ∀ first later, 0 < first → 0 < later → first + later ≤ count →
        foldedMask (spec.seed + first) later ≠ 0#64 := by
  rw [blocksWritten_eq nodeId coreId spec targetPath env hcount,
    List.nodup_map_iff_inj_on List.nodup_range]
  constructor
  · intro h first later hfirst hlater hin hzero
    have hblocks := (nodeBlock_eq_iff hpos hwords spec.seed first later).mpr hzero
    have hsame := h (first - 1) (List.mem_range.mpr (by omega)) (first - 1 + later)
      (List.mem_range.mpr (by omega)) ?_
    · omega
    · have hprevious : first - 1 + 1 = first := by omega
      have hnext : first - 1 + later + 1 = first + later := by omega
      rw [hprevious, hnext]
      exact hblocks
  · intro h
    have hlater (i j : ℕ) (hij : i < j) (hj : j < count) :
        nodeBlock spec.seed spec.blockSizeBytes (i + 1) ≠
          nodeBlock spec.seed spec.blockSizeBytes (j + 1) := by
      intro hblocks
      have hsum : j + 1 = i + 1 + (j - i) := by omega
      rw [hsum, nodeBlock_eq_iff hpos hwords] at hblocks
      exact h (i + 1) (j - i) (by omega) (by omega) (by omega) hblocks
    intro i hi j hj hblocks
    obtain hij | hij | hij := Nat.lt_trichotomy i j
    · exact absurd hblocks (hlater i j hij (List.mem_range.mp hj))
    · exact hij
    · exact absurd hblocks.symm (hlater j i hij (List.mem_range.mp hi))

/-- As long as the seeds have 64 bits, the blocks of a run are pairwise different exactly when
its operations are as few as in `DistinctOperations`. -/
theorem blocks_distinct_iff {count : ℕ}
    (hcount : (blocksWritten (runSimulatedNodeWorker nodeId coreId spec targetPath
      env)).length = count)
    (hrange : spec.seed + count ≤ 2 ^ 64) (hpos : 0 < spec.blockSizeBytes)
    (hwords : 8 ∣ spec.blockSizeBytes) :
    (blocksWritten (runSimulatedNodeWorker nodeId coreId spec targetPath env)).Nodup ↔
      DistinctOperations spec.seed count := by
  rw [blocks_nodup_iff nodeId coreId spec targetPath env hcount hpos hwords]
  exact foldedMasks_ne_zero_iff hrange

/-- Surroundings that fail nothing let a run write as many blocks as the timer allows, as long
as its seeds have 64 bits. -/
theorem acceptingNode_length {timedOps : ℕ} (hrange : spec.seed + timedOps ≤ 2 ^ 64) :
    (blocksWritten (runSimulatedNodeWorker nodeId coreId spec targetPath
      (acceptingNode spec.blockSizeBytes timedOps))).length = timedOps := by
  rw [blocksWritten, List.length_map]
  refine run_attempted_length spec _ nodeId coreId targetPath rfl rfl fun j hj => ?_
  have hlt : j < timedOps := hj
  exact ⟨Or.inr (by omega), rfl, _, rfl⟩

end Run

/-- Four pages from the seed seven on. -/
theorem blocks_distinct_iff_four_pages :
    (blocksWritten (runSimulatedNodeWorker "node-00" 0 ⟨"node-00", 0, 7, 0, 4096, 4096, 0⟩
        "/tmp/cluster_sim" (acceptingNode 4096 4))).Nodup ↔ DistinctOperations 7 4 :=
  blocks_distinct_iff "node-00" 0 ⟨"node-00", 0, 7, 0, 4096, 4096, 0⟩ "/tmp/cluster_sim"
    (acceptingNode 4096 4) (acceptingNode_length _ _ _ _ (by decide)) (by decide) (by decide)
    (by decide)

/-- In the emulator's own cluster of four nodes with two cores each, the third core repeats a
block within five operations. -/
theorem blocks_repeat_in_emulator :
    ∃ spec ∈ clusterShards 12345 [("node-00", 2), ("node-01", 2), ("node-02", 2), ("node-03", 2)]
        8589934592 65536,
      spec.seed + 5 ≤ 2 ^ 64 ∧
        ¬ (blocksWritten (runSimulatedNodeWorker "node-01" 0 spec "/tmp/cluster_sim"
          (acceptingNode 65536 5))).Nodup := by
  let spec : WorkerShardSpec :=
    ⟨"node-01", 0, 5886303152054975053, 131072, 524288, 65536, 1073741824⟩
  have hrange : spec.seed + 5 ≤ 2 ^ 64 := by decide
  refine ⟨spec, by decide, hrange, fun hnodup => ?_⟩
  have hmasks := (blocks_nodup_iff "node-01" 0 spec "/tmp/cluster_sim" (acceptingNode 65536 5)
    (acceptingNode_length _ _ _ _ hrange) (by decide) (by decide)).mp hnodup
  have hfew := few_of_not_cancelling hrange hmasks
  exact absurd hfew (by decide)

end Steve.Emulator
