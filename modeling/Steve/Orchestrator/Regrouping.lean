import Steve.Orchestrator.Cluster

/-!
# Shards depend on the topology only through the total core count

Nodes only group the shards. What a shard tells its worker to do, apart from the node and the
core that run it, is fixed by its position among all shards and by the number of cores. So
moving cores between nodes leaves the sequence of shards as it was, and evicting nodes or
letting them rejoin leaves the seeds and base offsets of the positions that remain.
-/

namespace Steve.Orchestrator

open Steve.Library

/-- What a shard tells its worker to do. -/
@[ext]
structure ShardPlan where
  seed : ℕ
  baseOffsetBytes : ℕ
  strideBytes : ℕ
  blockSizeBytes : ℕ
  targetThroughputBps : ℤ
  deriving DecidableEq, Repr

/-- The plan of a shard, without the node and the core that run it. -/
def WorkerShardSpec.plan (spec : WorkerShardSpec) : ShardPlan where
  seed := spec.seed
  baseOffsetBytes := spec.baseOffsetBytes
  strideBytes := spec.strideBytes
  blockSizeBytes := spec.blockSizeBytes
  targetThroughputBps := spec.targetThroughputBps

/-- The plan at a position of a cluster with the given number of cores. -/
def shardPlan (globalSeed : ℤ) (cores : ℕ) (target : ℤ) (blockSize i : ℕ) : ShardPlan where
  seed := splitmix64 (mask64 (Int.xor globalSeed i))
  baseOffsetBytes := i * blockSize
  strideBytes := cores * blockSize
  blockSizeBytes := blockSize
  targetThroughputBps := target / cores

/-- The shards of a cluster, concatenated in the order of its nodes. -/
def shardsInNodeOrder (globalSeed : ℤ) (nodes : List (String × ℕ)) (target : ℤ)
    (blockSize : ℕ) : List WorkerShardSpec :=
  nodes.flatMap fun node =>
    ((generateClusterShards globalSeed nodes target blockSize).get? node.1).getD []

/-- The rate of a core is the floor of its share, and zero on a cluster without cores. -/
theorem perCoreThroughput_eq (target : ℤ) (cores : ℕ) :
    perCoreThroughput target cores = target / cores := by
  rw [perCoreThroughput]
  split
  · rename_i hcores
    rw [hcores, Nat.cast_zero, Int.ediv_zero]
  · exact Int.fdiv_eq_ediv_of_nonneg target (Int.natCast_nonneg cores)

/-- A shard's plan is the one of its position. -/
theorem plan_shardSpec (globalSeed : ℤ) (cores : ℕ) (target : ℤ) (blockSize : ℕ)
    (nodeId : String) (localCore i : ℕ) :
    (shardSpec globalSeed cores (perCoreThroughput target cores) blockSize nodeId localCore
      i).plan = shardPlan globalSeed cores target blockSize i := by
  rw [shardPlan, ← perCoreThroughput_eq]
  rfl

section Loop

variable (globalSeed : ℤ) (cores : ℕ) (throughput : ℤ) (blockSize : ℕ)

/-- The outer loop files one list for each new node id, in the order of the nodes. -/
theorem clusterShardLoop_keys (nodes : List (String × ℕ))
    (acc : Dict String (List WorkerShardSpec) × ℕ) (hids : (nodes.map Prod.fst).Nodup)
    (hfresh : ∀ node ∈ nodes, node.1 ∉ acc.1.keys) :
    (nodes.foldl (clusterShardStep globalSeed cores throughput blockSize) acc).1.keys =
      acc.1.keys ++ nodes.map Prod.fst := by
  induction nodes generalizing acc with
  | nil => exact (List.append_nil _).symm
  | cons node rest ih =>
    obtain ⟨hnode, hrest⟩ := List.nodup_cons.mp hids
    have hkeys : (clusterShardStep globalSeed cores throughput blockSize acc node).1.keys =
        acc.1.keys ++ [node.1] := by
      rw [clusterShardStep, Dict.keys_set, if_neg (hfresh node List.mem_cons_self)]
    rw [List.foldl_cons, ih _ hrest, hkeys, List.append_assoc, List.singleton_append,
      List.map_cons]
    intro other hother
    rw [hkeys, List.mem_append, List.mem_singleton, not_or]
    refine ⟨hfresh other (List.mem_cons_of_mem _ hother), ?_⟩
    intro heq
    exact hnode (heq ▸ List.mem_map_of_mem hother)

/-- It leaves what is filed under other ids. -/
theorem clusterShardLoop_get?_of_notMem (nodes : List (String × ℕ))
    (acc : Dict String (List WorkerShardSpec) × ℕ) {nodeId : String}
    (h : nodeId ∉ nodes.map Prod.fst) :
    (nodes.foldl (clusterShardStep globalSeed cores throughput blockSize) acc).1.get? nodeId =
      acc.1.get? nodeId := by
  induction nodes generalizing acc with
  | nil => rfl
  | cons node rest ih =>
    rw [List.map_cons, List.mem_cons, not_or] at h
    rw [List.foldl_cons, ih _ h.2, clusterShardStep, Dict.get?_set, if_neg (Ne.symm h.1)]

/-- Under the id of a node it files one shard for each of its cores, in their order. -/
theorem clusterShardLoop_get? (nodes : List (String × ℕ))
    (acc : Dict String (List WorkerShardSpec) × ℕ) (hids : (nodes.map Prod.fst).Nodup)
    {node : String × ℕ} (hnode : node ∈ nodes) :
    ∃ start,
      (nodes.foldl (clusterShardStep globalSeed cores throughput blockSize) acc).1.get? node.1 =
        some ((List.range node.2).map fun localCore =>
          shardSpec globalSeed cores throughput blockSize node.1 localCore (start + localCore)) := by
  induction nodes generalizing acc with
  | nil => cases hnode
  | cons first rest ih =>
    obtain ⟨hfirst, hrest⟩ := List.nodup_cons.mp hids
    rw [List.foldl_cons]
    cases List.mem_cons.mp hnode with
    | inl heq =>
      refine ⟨acc.2, ?_⟩
      rw [heq, clusterShardLoop_get?_of_notMem _ _ _ _ rest _ hfirst, clusterShardStep,
        Dict.get?_set, if_pos rfl, nodeShardLoop_eq]
    | inr hlater => exact ih _ hrest hlater

end Loop

section Regrouping

variable (globalSeed : ℤ) (target : ℤ) (blockSize : ℕ)

/-- Node order is the order the generator files the shards in. -/
theorem shardsInNodeOrder_eq {nodes : List (String × ℕ)} (hids : (nodes.map Prod.fst).Nodup) :
    shardsInNodeOrder globalSeed nodes target blockSize =
      clusterShards globalSeed nodes target blockSize := by
  have hkeys : (generateClusterShards globalSeed nodes target blockSize).keys =
      nodes.map Prod.fst :=
    clusterShardLoop_keys _ _ _ _ nodes (Dict.empty, 0) hids fun _ _ => List.not_mem_nil
  rw [clusterShards, ← Dict.map_getD_keys _ [], hkeys, List.map_map]
  rfl

/-- The plans of a cluster in closed form. -/
theorem plans_eq {nodes : List (String × ℕ)} (hids : (nodes.map Prod.fst).Nodup) :
    (shardsInNodeOrder globalSeed nodes target blockSize).map WorkerShardSpec.plan =
      (List.range (totalCores nodes)).map
        (shardPlan globalSeed (totalCores nodes) target blockSize) := by
  rw [shardsInNodeOrder_eq _ _ _ hids, clusterShards_eq _ _ _ _ hids]
  apply List.ext_getElem
  · simp [clusterCores_length]
  · intro i _ _
    simp only [List.getElem_map, List.getElem_mapIdx, List.getElem_range, plan_shardSpec]

/-- A node gets one shard for each of its cores, numbered from zero. -/
theorem nodeShards_eq {nodes : List (String × ℕ)} (hids : (nodes.map Prod.fst).Nodup)
    {node : String × ℕ} (hnode : node ∈ nodes) :
    ∃ shards, (generateClusterShards globalSeed nodes target blockSize).get? node.1 = some shards ∧
      shards.map WorkerShardSpec.coreId = List.range node.2 ∧
      ∀ spec ∈ shards, spec.nodeId = node.1 := by
  obtain ⟨start, hfiled⟩ := clusterShardLoop_get? globalSeed (totalCores nodes)
    (perCoreThroughput target (totalCores nodes)) blockSize nodes (Dict.empty, 0) hids hnode
  refine ⟨_, hfiled, ?_, ?_⟩
  · rw [List.map_map]
    exact List.map_id _
  · intro spec hspec
    obtain ⟨localCore, -, rfl⟩ := List.mem_map.mp hspec
    rfl

/-- The rates of a cluster add up to the target less what does not divide evenly. -/
theorem rates_sum {nodes : List (String × ℕ)} (hids : (nodes.map Prod.fst).Nodup) :
    ((shardsInNodeOrder globalSeed nodes target blockSize).map
        WorkerShardSpec.targetThroughputBps).sum =
      target - target % totalCores nodes := by
  have hrates : (shardsInNodeOrder globalSeed nodes target blockSize).map
      WorkerShardSpec.targetThroughputBps =
        List.replicate (totalCores nodes) (target / totalCores nodes) := by
    have hplans := congrArg (List.map ShardPlan.targetThroughputBps)
      (plans_eq globalSeed target blockSize hids)
    rw [List.map_map, List.map_map] at hplans
    calc (shardsInNodeOrder globalSeed nodes target blockSize).map
          WorkerShardSpec.targetThroughputBps
        = (List.range (totalCores nodes)).map fun _ => target / totalCores nodes := hplans
      _ = List.replicate (totalCores nodes) (target / totalCores nodes) := by
        rw [List.map_const', List.length_range]
  rw [hrates, List.sum_replicate, nsmul_eq_mul, Int.emod_def, sub_sub_cancel]

/-- How the shards of two clusters compare, by their core counts. -/
structure PlannedByTotal (first second : List (String × ℕ)) : Prop where
  /-- the shards of the first cluster have the plans of their positions -/
  closedForm : (shardsInNodeOrder globalSeed first target blockSize).map WorkerShardSpec.plan =
    (List.range (totalCores first)).map
      (shardPlan globalSeed (totalCores first) target blockSize)
  /-- a cluster with as many cores has the same plans in the same order -/
  regrouped : totalCores first = totalCores second →
    (shardsInNodeOrder globalSeed first target blockSize).map WorkerShardSpec.plan =
      (shardsInNodeOrder globalSeed second target blockSize).map WorkerShardSpec.plan
  /-- each node gets its own cores' shards -/
  perNode : ∀ node ∈ first, ∃ shards,
    (generateClusterShards globalSeed first target blockSize).get? node.1 = some shards ∧
      shards.map WorkerShardSpec.coreId = List.range node.2 ∧
      ∀ spec ∈ shards, spec.nodeId = node.1
  /-- the rates add up to the target less its remainder -/
  rates : ((shardsInNodeOrder globalSeed first target blockSize).map
    WorkerShardSpec.targetThroughputBps).sum = target - target % totalCores first
  /-- whatever the core counts, common positions have common seeds and base offsets -/
  resized : ∀ (i : ℕ) (hfirst : i < (shardsInNodeOrder globalSeed first target blockSize).length)
    (hsecond : i < (shardsInNodeOrder globalSeed second target blockSize).length),
    (shardsInNodeOrder globalSeed first target blockSize)[i].seed =
        (shardsInNodeOrder globalSeed second target blockSize)[i].seed ∧
      (shardsInNodeOrder globalSeed first target blockSize)[i].baseOffsetBytes =
        (shardsInNodeOrder globalSeed second target blockSize)[i].baseOffsetBytes

/-- The plan at a position is the closed form's. -/
theorem plan_getElem {nodes : List (String × ℕ)} (hids : (nodes.map Prod.fst).Nodup) (i : ℕ)
    (hi : i < (shardsInNodeOrder globalSeed nodes target blockSize).length) :
    (shardsInNodeOrder globalSeed nodes target blockSize)[i].plan =
      shardPlan globalSeed (totalCores nodes) target blockSize i := by
  have hplan := List.getElem_map WorkerShardSpec.plan (h := by simpa using hi)
    (l := shardsInNodeOrder globalSeed nodes target blockSize)
  rw [← hplan]
  simp only [plans_eq globalSeed target blockSize hids, List.getElem_map, List.getElem_range]

/-- Shards depend on the topology only through the total core count. -/
theorem shards_plannedByTotal {first second : List (String × ℕ)}
    (hfirst : (first.map Prod.fst).Nodup) (hsecond : (second.map Prod.fst).Nodup) :
    PlannedByTotal globalSeed target blockSize first second where
  closedForm := plans_eq globalSeed target blockSize hfirst
  regrouped := by
    intro htotal
    rw [plans_eq _ _ _ hfirst, plans_eq _ _ _ hsecond, htotal]
  perNode := fun _ hnode => nodeShards_eq globalSeed target blockSize hfirst hnode
  rates := rates_sum globalSeed target blockSize hfirst
  resized := by
    intro i hi hj
    have hplan := plan_getElem globalSeed target blockSize hfirst i hi
    have hother := plan_getElem globalSeed target blockSize hsecond i hj
    exact ⟨(congrArg ShardPlan.seed hplan).trans (congrArg ShardPlan.seed hother).symm,
      (congrArg ShardPlan.baseOffsetBytes hplan).trans
        (congrArg ShardPlan.baseOffsetBytes hother).symm⟩

end Regrouping

/-- Three cores on two nodes, one of them without cores, and on one node. -/
theorem shards_plannedByTotal_three_cores :
    PlannedByTotal 42 1000 4096 [("node-0", 0), ("node-1", 3)] [("node-2", 3)] :=
  shards_plannedByTotal 42 1000 4096 (by decide) (by decide)

end Steve.Orchestrator
