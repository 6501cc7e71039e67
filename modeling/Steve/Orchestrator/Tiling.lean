import Steve.Library.StridedBlocks
import Steve.Orchestrator.WorkerWrites

/-!
# The cluster's writes tile the target

The shard of global core index `i` starts at block `i` and strides over one row of the
whole cluster, so its `t`-th write is the `i`-th block of row `t`. The write calls of any
run are an initial segment of these, whatever its adapter and surroundings do.
-/

namespace Steve.Orchestrator

open Steve.Library

/-- The byte range a worker's `t`-th write targets. -/
def writeRange (spec : WorkerShardSpec) (t : ℕ) : Set ℕ :=
  Set.Ico (writeOffset spec t) (writeOffset spec t + spec.blockSizeBytes)

/-- The byte range of a write call: as many bytes from its offset as its payload has. -/
def WriteCall.range (call : WriteCall) : Set ℕ :=
  Set.Ico call.offset (call.offset + call.payload.view.length)

/-- The `t`-th call of any run targets the shard's `t`-th range. -/
theorem WorkerRun.writes_range (run : WorkerRun) {spec : WorkerShardSpec}
    (hseed : spec.seed < 2 ^ 64) (t : ℕ) (ht : t < (run.writes spec).length) :
    ((run.writes spec)[t]).range = writeRange spec t := by
  obtain ⟨address, h⟩ := run.writes_getElem hseed t ht
  rw [h, WriteCall.range, shardWrite, writeRange]
  simp only [Payload.blockAfter_length]

section Rows

variable (globalSeed : ℤ) (nodes : List (String × ℕ)) (target : ℤ) (blockSize : ℕ)

/-- A shard's ranges are its column of the cluster's rows of blocks. -/
theorem clusterShards_writeRange (hids : (nodes.map Prod.fst).Nodup) (i : ℕ)
    (hi : i < (clusterShards globalSeed nodes target blockSize).length) (t : ℕ) :
    writeRange (clusterShards globalSeed nodes target blockSize)[i] t =
      stridedBlock (totalCores nodes) blockSize i t := by
  obtain ⟨nodeId, localCore, h⟩ := clusterShards_getElem globalSeed nodes target blockSize hids i hi
  rw [h]
  rfl

end Rows

/-- What a cluster's write calls do to the target, whose rows hold one block a worker. -/
structure WritesTile (shards : List WorkerShardSpec) (rowBytes : ℕ) : Prop where
  /-- the calls of every run target the shard's ranges in turn -/
  calls : ∀ (i : Fin shards.length) (run : WorkerRun) (t : ℕ)
    (ht : t < (run.writes shards[i]).length),
    ((run.writes shards[i])[t]).range = writeRange shards[i] t
  /-- distinct writes never overlap -/
  disjoint : ∀ left right : Fin shards.length × ℕ, left ≠ right →
    Disjoint (writeRange shards[left.1] left.2) (writeRange shards[right.1] right.2)
  /-- every byte belongs to exactly one write -/
  covered : ∀ position : ℕ, ∃! write : Fin shards.length × ℕ,
    position ∈ writeRange shards[write.1] write.2
  /-- as many writes of every worker fill as many rows -/
  rows : ∀ k : ℕ, ⋃ i : Fin shards.length, ⋃ t ∈ Set.Iio k, writeRange shards[i] t =
    Set.Ico 0 (k * rowBytes)

/-- The write calls of all workers tile the target. -/
theorem clusterShards_writes_tile (globalSeed : ℤ) (nodes : List (String × ℕ)) (target : ℤ)
    (blockSize : ℕ) (hids : (nodes.map Prod.fst).Nodup) (hcores : 1 ≤ totalCores nodes)
    (hsize : 1 ≤ blockSize) :
    WritesTile (clusterShards globalSeed nodes target blockSize)
      (totalCores nodes * blockSize) := by
  have hlength := clusterShards_length globalSeed nodes target blockSize hids
  have hrange (i : Fin (clusterShards globalSeed nodes target blockSize).length) (t : ℕ) :
      writeRange (clusterShards globalSeed nodes target blockSize)[i] t =
        stridedBlock (totalCores nodes) blockSize i t :=
    clusterShards_writeRange globalSeed nodes target blockSize hids i i.isLt t
  have hlane (i : Fin (clusterShards globalSeed nodes target blockSize).length) :
      (i : ℕ) < totalCores nodes := hlength ▸ i.isLt
  refine ⟨?_, ?_, ?_, ?_⟩
  · intro i run t ht
    exact run.writes_range (clusterShards_seed_lt (List.getElem_mem i.isLt)) t ht
  · intro left right hne
    rw [hrange, hrange]
    apply stridedBlock_disjoint hsize (hlane left.1) (hlane right.1)
    intro hequal
    exact hne (Prod.ext (Fin.ext hequal.1) hequal.2)
  · intro position
    have hworker : position / blockSize % totalCores nodes <
        (clusterShards globalSeed nodes target blockSize).length := by
      rw [hlength]
      exact Nat.mod_lt _ hcores
    refine ⟨(⟨_, hworker⟩, position / blockSize / totalCores nodes), ?_, ?_⟩
    · simp only [hrange]
      exact mem_stridedBlock_self hsize hcores position
    · intro write hwrite
      simp only [hrange] at hwrite
      obtain ⟨hmod, hdiv⟩ := (mem_stridedBlock_iff hsize (hlane write.1)).mp hwrite
      exact Prod.ext (Fin.ext hmod.symm) hdiv.symm
  · intro k
    ext position
    simp only [Set.mem_iUnion, Set.mem_Iio, Set.mem_Ico, Nat.zero_le, true_and, hrange,
      ← Nat.mul_assoc, ← mem_rounds_iff hsize k position]
    constructor
    · intro hcovered
      obtain ⟨i, t, ht, hposition⟩ := hcovered
      exact ⟨i, hlane i, t, ht, hposition⟩
    · intro hcovered
      obtain ⟨lane, hlt, t, ht, hposition⟩ := hcovered
      exact ⟨⟨lane, hlength ▸ hlt⟩, t, ht, hposition⟩

/-- Three cores on two nodes: rows of three 4096-byte blocks. -/
theorem clusterShards_writes_tile_three_cores :
    WritesTile (clusterShards (-1) [("node-0", 2), ("node-1", 1)] 0 4096) (3 * 4096) :=
  clusterShards_writes_tile (-1) [("node-0", 2), ("node-1", 1)] 0 4096 (by decide) (by decide)
    (by decide)

end Steve.Orchestrator
