import Mathlib.Data.Int.Bitwise
import Mathlib.Data.List.Flatten
import Mathlib.Algebra.BigOperators.Group.List.Basic
import Steve.Library.Dict

/-!
# The deterministic cluster sharding engine

A functional model of the shard generator. Two nested loops hand every core of every node
one shard; a running global core index fixes the shard's seed and base offset, and the
stride is the whole cluster's block row. The loops are kept as folds over the same
accumulators as the source. The closed form below replaces them by one indexed
map over the cluster's cores, on which every later result rests.

Seeds are Python integers of any sign and width; `& 0xFFFFFFFFFFFFFFFF` on such an integer
is its residue modulo `2 ^ 64`.
-/

namespace Steve.Orchestrator

open Steve.Library

/-- The plan of one core-pinned worker. -/
structure WorkerShardSpec where
  nodeId : String
  coreId : ℕ
  seed : ℕ
  baseOffsetBytes : ℕ
  strideBytes : ℕ
  blockSizeBytes : ℕ
  targetThroughputBps : ℤ
  deriving DecidableEq, Repr

/-- The low 64 bits of an integer in two's complement: `value & 0xFFFFFFFFFFFFFFFF`. -/
def mask64 (value : ℤ) : ℕ := (value % 2 ^ 64).toNat

/-- The 64-bit SplitMix hash. -/
def splitmix64 (state : ℤ) : ℕ :=
  let z := mask64 (state + 0x9E3779B97F4A7C15)
  let z := ((z ^^^ (z >>> 30)) * 0xBF58476D1CE4E5B9) &&& 0xFFFFFFFFFFFFFFFF
  let z := ((z ^^^ (z >>> 27)) * 0x94D049BB133111EB) &&& 0xFFFFFFFFFFFFFFFF
  (z ^^^ (z >>> 31)) &&& 0xFFFFFFFFFFFFFFFF

/-- The cluster's core count, summed over the nodes. -/
def totalCores (nodes : List (String × ℕ)) : ℕ := (nodes.map Prod.snd).sum

/-- The rate of one core: floor division, or nothing on a cluster without cores. -/
def perCoreThroughput (targetTotalThroughputBps : ℤ) (cores : ℕ) : ℤ :=
  if cores = 0 then 0 else targetTotalThroughputBps.fdiv cores

/-- The shard the inner loop builds for one local core at the running global core index. -/
def shardSpec (globalSeed : ℤ) (cores : ℕ) (throughput : ℤ) (blockSize : ℕ)
    (nodeId : String) (localCore globalCoreIndex : ℕ) : WorkerShardSpec where
  nodeId := nodeId
  coreId := localCore
  seed := splitmix64 (mask64 (Int.xor globalSeed globalCoreIndex))
  baseOffsetBytes := globalCoreIndex * blockSize
  strideBytes := cores * blockSize
  blockSizeBytes := blockSize
  targetThroughputBps := throughput

/-- The inner loop: one shard a local core, advancing the global core index each time. -/
def nodeShardLoop (globalSeed : ℤ) (cores : ℕ) (throughput : ℤ) (blockSize : ℕ)
    (nodeId : String) (coreCount globalCoreIndex : ℕ) : List WorkerShardSpec × ℕ :=
  (List.range coreCount).foldl
    (fun acc localCore =>
      (acc.1 ++ [shardSpec globalSeed cores throughput blockSize nodeId localCore acc.2],
        acc.2 + 1))
    ([], globalCoreIndex)

/-- The outer loop's step: shard one node and file its list under the node id. -/
def clusterShardStep (globalSeed : ℤ) (cores : ℕ) (throughput : ℤ) (blockSize : ℕ)
    (acc : Dict String (List WorkerShardSpec) × ℕ) (node : String × ℕ) :
    Dict String (List WorkerShardSpec) × ℕ :=
  let loop := nodeShardLoop globalSeed cores throughput blockSize node.1 node.2 acc.2
  (acc.1.set node.1 loop.1, loop.2)

/-- The shards of every node of a cluster. -/
def generateClusterShards (globalSeed : ℤ) (nodes : List (String × ℕ))
    (targetTotalThroughputBps : ℤ) (blockSize : ℕ) : Dict String (List WorkerShardSpec) :=
  let cores := totalCores nodes
  let throughput := perCoreThroughput targetTotalThroughputBps cores
  (nodes.foldl (clusterShardStep globalSeed cores throughput blockSize) (Dict.empty, 0)).1

/-- All shards returned for a cluster, node after node. -/
def clusterShards (globalSeed : ℤ) (nodes : List (String × ℕ))
    (targetTotalThroughputBps : ℤ) (blockSize : ℕ) : List WorkerShardSpec :=
  (generateClusterShards globalSeed nodes targetTotalThroughputBps blockSize).values.flatten

/-- The cluster's cores in the order the loops visit them, each as its node and local core. -/
def clusterCores (nodes : List (String × ℕ)) : List (String × ℕ) :=
  nodes.flatMap fun node => (List.range node.2).map fun localCore => (node.1, localCore)

/-- There are as many visited cores as the nodes declare. -/
theorem clusterCores_length (nodes : List (String × ℕ)) :
    (clusterCores nodes).length = totalCores nodes := by
  simp only [clusterCores, totalCores, List.length_flatMap, List.length_map, List.length_range]

/-- The first node's cores come before those of the other nodes. -/
theorem clusterCores_cons (node : String × ℕ) (rest : List (String × ℕ)) :
    clusterCores (node :: rest) =
      (List.range node.2).map (fun localCore => (node.1, localCore)) ++ clusterCores rest :=
  List.flatMap_cons

section ClosedForm

variable (globalSeed : ℤ) (cores : ℕ) (throughput : ℤ) (blockSize : ℕ)

/-- The inner loop numbers its shards consecutively from the index it started at. -/
theorem nodeShardLoop_eq (nodeId : String) (coreCount globalCoreIndex : ℕ) :
    nodeShardLoop globalSeed cores throughput blockSize nodeId coreCount globalCoreIndex =
      ((List.range coreCount).map fun localCore =>
          shardSpec globalSeed cores throughput blockSize nodeId localCore
            (globalCoreIndex + localCore),
        globalCoreIndex + coreCount) := by
  induction coreCount with
  | zero => rfl
  | succ coreCount ih =>
    rw [nodeShardLoop] at ih ⊢
    rw [List.range_succ, List.foldl_append, ih]
    simp [Nat.add_assoc]

/-- The shards of the cores visited from a global core index on. -/
def shardsFrom (start : ℕ) (visited : List (String × ℕ)) : List WorkerShardSpec :=
  visited.mapIdx fun i core =>
    shardSpec globalSeed cores throughput blockSize core.1 core.2 (start + i)

/-- Visiting more cores continues the numbering where the earlier ones stopped. -/
theorem shardsFrom_append (start : ℕ) (first second : List (String × ℕ)) :
    shardsFrom globalSeed cores throughput blockSize start (first ++ second) =
      shardsFrom globalSeed cores throughput blockSize start first ++
        shardsFrom globalSeed cores throughput blockSize (start + first.length) second := by
  simp only [shardsFrom, List.mapIdx_append, Nat.add_assoc, Nat.add_comm first.length]

/-- One node's inner loop is the numbered map over its own cores. -/
theorem nodeShardLoop_fst (node : String × ℕ) (globalCoreIndex : ℕ) :
    (nodeShardLoop globalSeed cores throughput blockSize node.1 node.2 globalCoreIndex).1 =
      shardsFrom globalSeed cores throughput blockSize globalCoreIndex
        ((List.range node.2).map fun localCore => (node.1, localCore)) := by
  rw [nodeShardLoop_eq]
  apply List.ext_getElem
  · simp [shardsFrom]
  · intro i h₁ h₂
    simp [shardsFrom]

/-- The outer loop's accumulator: the filed shards are the numbered map over the cores
visited so far, and the running index counts them. Distinct ids keep the filing order. -/
theorem clusterShardLoop_values (nodes : List (String × ℕ))
    (acc : Dict String (List WorkerShardSpec) × ℕ)
    (hids : (nodes.map Prod.fst).Nodup) (hfresh : ∀ node ∈ nodes, node.1 ∉ acc.1.keys) :
    (nodes.foldl (clusterShardStep globalSeed cores throughput blockSize) acc).1.values.flatten =
      acc.1.values.flatten ++
        shardsFrom globalSeed cores throughput blockSize acc.2 (clusterCores nodes) := by
  induction nodes generalizing acc with
  | nil => simp [clusterCores, shardsFrom]
  | cons node rest ih =>
    obtain ⟨hnode, hrest⟩ := List.nodup_cons.mp hids
    have hkey : node.1 ∉ acc.1.keys := hfresh node List.mem_cons_self
    rw [List.foldl_cons, ih _ hrest]
    · have hindex : (clusterShardStep globalSeed cores throughput blockSize acc node).2 =
          acc.2 + ((List.range node.2).map fun localCore => (node.1, localCore)).length := by
        simp [clusterShardStep, nodeShardLoop_eq]
      rw [hindex, clusterShardStep, Dict.values_set_of_notMem _ _ _ hkey, nodeShardLoop_fst,
        clusterCores_cons, shardsFrom_append, List.flatten_append, List.flatten_singleton,
        List.append_assoc]
    · intro other hother
      simp only [clusterShardStep, Dict.mem_keys_set, not_or]
      refine ⟨?_, hfresh other (List.mem_cons_of_mem _ hother)⟩
      intro heq
      exact hnode (heq ▸ List.mem_map_of_mem hother)

/-- Whatever the node ids, the outer loop files only shards the inner loop built. -/
theorem clusterShardLoop_forall (nodes : List (String × ℕ))
    (acc : Dict String (List WorkerShardSpec) × ℕ) (Built : WorkerShardSpec → Prop)
    (hbuilt : ∀ nodeId localCore index,
      Built (shardSpec globalSeed cores throughput blockSize nodeId localCore index))
    (hacc : ∀ shards ∈ acc.1.values, ∀ spec ∈ shards, Built spec) :
    ∀ shards ∈ (nodes.foldl (clusterShardStep globalSeed cores throughput blockSize) acc).1.values,
      ∀ spec ∈ shards, Built spec := by
  induction nodes generalizing acc with
  | nil => exact hacc
  | cons node rest ih =>
    rw [List.foldl_cons]
    apply ih
    intro shards hshards spec hspec
    rw [clusterShardStep] at hshards
    cases Dict.mem_values_set hshards with
    | inl hnew =>
      rw [hnew, nodeShardLoop_eq] at hspec
      obtain ⟨localCore, _, rfl⟩ := List.mem_map.mp hspec
      exact hbuilt _ _ _
    | inr hold => exact hacc shards hold spec hspec

end ClosedForm

/-- Every shard returned for a cluster is built for some core at some global core index. -/
theorem mem_clusterShards {globalSeed : ℤ} {nodes : List (String × ℕ)} {target : ℤ}
    {blockSize : ℕ} {spec : WorkerShardSpec}
    (h : spec ∈ clusterShards globalSeed nodes target blockSize) :
    ∃ nodeId localCore index, spec =
      shardSpec globalSeed (totalCores nodes) (perCoreThroughput target (totalCores nodes))
        blockSize nodeId localCore index := by
  obtain ⟨shards, hshards, hspec⟩ := List.mem_flatten.mp h
  let Built (spec : WorkerShardSpec) : Prop := ∃ nodeId localCore index, spec =
    shardSpec globalSeed (totalCores nodes) (perCoreThroughput target (totalCores nodes))
      blockSize nodeId localCore index
  refine clusterShardLoop_forall globalSeed (totalCores nodes) _ blockSize nodes _ Built
    (fun nodeId localCore index => ⟨nodeId, localCore, index, rfl⟩) ?_ shards hshards spec hspec
  intro shards hnone
  cases hnone

/-- The generator's closed form: the `i`-th core visited gets the shard of global core
index `i`. -/
theorem clusterShards_eq (globalSeed : ℤ) (nodes : List (String × ℕ)) (target : ℤ)
    (blockSize : ℕ) (hids : (nodes.map Prod.fst).Nodup) :
    clusterShards globalSeed nodes target blockSize =
      (clusterCores nodes).mapIdx fun i core =>
        shardSpec globalSeed (totalCores nodes) (perCoreThroughput target (totalCores nodes))
          blockSize core.1 core.2 i := by
  rw [clusterShards, generateClusterShards, clusterShardLoop_values _ _ _ _ _ _ hids (by simp)]
  simp [shardsFrom]

/-- Every core of the cluster gets one shard. -/
theorem clusterShards_length (globalSeed : ℤ) (nodes : List (String × ℕ)) (target : ℤ)
    (blockSize : ℕ) (hids : (nodes.map Prod.fst).Nodup) :
    (clusterShards globalSeed nodes target blockSize).length = totalCores nodes := by
  rw [clusterShards_eq _ _ _ _ hids, List.length_mapIdx, clusterCores_length]

/-- The shard at a position carries that global core index. -/
theorem clusterShards_getElem (globalSeed : ℤ) (nodes : List (String × ℕ)) (target : ℤ)
    (blockSize : ℕ) (hids : (nodes.map Prod.fst).Nodup) (i : ℕ)
    (hi : i < (clusterShards globalSeed nodes target blockSize).length) :
    ∃ nodeId localCore, (clusterShards globalSeed nodes target blockSize)[i] =
      shardSpec globalSeed (totalCores nodes) (perCoreThroughput target (totalCores nodes))
        blockSize nodeId localCore i := by
  simp only [clusterShards_eq _ _ _ _ hids, List.getElem_mapIdx]
  exact ⟨_, _, rfl⟩

/-- The shards of a cluster of one node. -/
theorem generateClusterShards_single (globalSeed : ℤ) (nodeId : String) (coreCount : ℕ)
    (target : ℤ) (blockSize : ℕ) :
    (generateClusterShards globalSeed [(nodeId, coreCount)] target blockSize).get? nodeId =
      some ((List.range coreCount).map fun localCore =>
        shardSpec globalSeed coreCount (perCoreThroughput target coreCount) blockSize nodeId
          localCore localCore) := by
  simp [generateClusterShards, clusterShardStep, nodeShardLoop_eq, totalCores, Dict.get?_set]

end Steve.Orchestrator
