import Steve.Library.LastAssignment
import Steve.Orchestrator.Tiling

/-!
# Node lists that repeat an id

The generator files a node's shards under its id, so a later node with the same id replaces
the shards of an earlier one, whose blocks then belong to nobody: the global core index and
the stride still count its cores. The shards that are left never meet. They leave gaps in
every row exactly when a replaced node has cores.
-/

namespace Steve.Orchestrator

open Steve.Library

section Loop

variable (globalSeed : ℤ) (cores : ℕ) (throughput : ℤ) (blockSize : ℕ)

/-- The lists the outer loop files, in turn, each under its node's id. -/
def filedShards (start : ℕ) : List (String × ℕ) → List (String × List WorkerShardSpec)
  | [] => []
  | node :: rest =>
    (node.1, (List.range node.2).map fun localCore =>
      shardSpec globalSeed cores throughput blockSize node.1 localCore (start + localCore)) ::
        filedShards (start + node.2) rest

/-- The filed lists have their nodes' ids. -/
theorem filedShards_keys (start : ℕ) (nodes : List (String × ℕ)) :
    (filedShards globalSeed cores throughput blockSize start nodes).map Prod.fst =
      nodes.map Prod.fst := by
  induction nodes generalizing start with
  | nil => rfl
  | cons node rest ih => rw [filedShards, List.map_cons, ih, List.map_cons]

/-- The outer loop files them one after the other. -/
theorem clusterShardLoop_eq (nodes : List (String × ℕ))
    (acc : Dict String (List WorkerShardSpec) × ℕ) :
    (nodes.foldl (clusterShardStep globalSeed cores throughput blockSize) acc).1 =
      acc.1.setAll (filedShards globalSeed cores throughput blockSize acc.2 nodes) := by
  induction nodes generalizing acc with
  | nil => rfl
  | cons node rest ih =>
    rw [List.foldl_cons, ih, filedShards, clusterShardStep, nodeShardLoop_eq]
    rfl

end Loop

/-- The cores whose shards no later node replaces, each as its node and local core, with its
global core index. -/
def keptCores (start : ℕ) : List (String × ℕ) → List ((String × ℕ) × ℕ)
  | [] => []
  | node :: rest =>
    if node.1 ∈ rest.map Prod.fst then keptCores (start + node.2) rest
    else ((List.range node.2).map fun localCore => ((node.1, localCore), start + localCore)) ++
      keptCores (start + node.2) rest

/-- The shard of a core at a global core index. -/
def coreShard (globalSeed : ℤ) (nodes : List (String × ℕ)) (target : ℤ) (blockSize : ℕ)
    (core : (String × ℕ) × ℕ) : WorkerShardSpec :=
  shardSpec globalSeed (totalCores nodes) (perCoreThroughput target (totalCores nodes)) blockSize
    core.1.1 core.1.2 core.2

section Kept

/-- The kept cores' shards are in the last lists filed. -/
theorem lastEntries_filedShards (globalSeed : ℤ) (cores : ℕ) (throughput : ℤ) (blockSize start : ℕ)
    (nodes : List (String × ℕ)) :
    ((Dict.lastEntries (filedShards globalSeed cores throughput blockSize start nodes)).map
        Prod.snd).flatten =
      (keptCores start nodes).map fun core =>
        shardSpec globalSeed cores throughput blockSize core.1.1 core.1.2 core.2 := by
  induction nodes generalizing start with
  | nil => rfl
  | cons node rest ih =>
    rw [filedShards, Dict.lastEntries, filedShards_keys, keptCores]
    split
    · exact ih _
    · rw [List.map_cons, List.flatten_cons, ih, List.map_append, List.map_map]
      rfl

/-- Kept cores are numbered within the cores visited. -/
theorem keptCores_bounds {start : ℕ} {nodes : List (String × ℕ)} {core : (String × ℕ) × ℕ}
    (h : core ∈ keptCores start nodes) : start ≤ core.2 ∧ core.2 < start + totalCores nodes := by
  induction nodes generalizing start with
  | nil => cases h
  | cons node rest ih =>
    have htotal : totalCores (node :: rest) = node.2 + totalCores rest := rfl
    rw [keptCores] at h
    split at h
    · obtain ⟨hlow, hhigh⟩ := ih h
      omega
    · obtain hown | hrest := List.mem_append.mp h
      · obtain ⟨localCore, hlocal, rfl⟩ := List.mem_map.mp hown
        have hlocal := List.mem_range.mp hlocal
        omega
      · obtain ⟨hlow, hhigh⟩ := ih hrest
        omega

/-- Kept cores are numbered in the order of their visits. -/
theorem keptCores_increasing (start : ℕ) (nodes : List (String × ℕ)) :
    ((keptCores start nodes).map Prod.snd).Pairwise (· < ·) := by
  induction nodes generalizing start with
  | nil => exact List.Pairwise.nil
  | cons node rest ih =>
    rw [keptCores]
    split
    · exact ih _
    · rw [List.map_append, List.map_map, List.pairwise_append]
      refine ⟨?_, ih _, ?_⟩
      · rw [List.pairwise_map]
        apply List.pairwise_lt_range.imp
        intro first second hlt
        exact Nat.add_lt_add_left hlt start
      · intro own hown later hlater
        obtain ⟨localCore, hlocal, rfl⟩ := List.mem_map.mp hown
        obtain ⟨core, hcore, rfl⟩ := List.mem_map.mp hlater
        have hlow := (keptCores_bounds hcore).1
        have hlocal := List.mem_range.mp hlocal
        simp only [Function.comp_apply]
        omega

/-- As many cores are kept as the last nodes of all ids declare. -/
theorem keptCores_length (start : ℕ) (nodes : List (String × ℕ)) :
    (keptCores start nodes).length = totalCores (Dict.lastEntries nodes) := by
  induction nodes generalizing start with
  | nil => rfl
  | cons node rest ih =>
    rw [keptCores, Dict.lastEntries]
    split
    · exact ih _
    · rw [List.length_append, List.length_map, List.length_range, ih]
      rfl

/-- Every earlier node of a repeated id is without cores. -/
def ReplacedEmpty (nodes : List (String × ℕ)) : Prop :=
  nodes.Pairwise fun earlier later => earlier.1 = later.1 → earlier.2 = 0

instance (nodes : List (String × ℕ)) : Decidable (ReplacedEmpty nodes) :=
  inferInstanceAs (Decidable (List.Pairwise _ nodes))

/-- All cores visited are kept exactly when no replaced node has one. -/
theorem keptCores_all_iff (start : ℕ) (nodes : List (String × ℕ)) :
    (∀ index, start ≤ index → index < start + totalCores nodes →
        index ∈ (keptCores start nodes).map Prod.snd) ↔ ReplacedEmpty nodes := by
  induction nodes generalizing start with
  | nil =>
    refine iff_of_true ?_ List.Pairwise.nil
    intro index hlow hhigh
    exact absurd hhigh (Nat.not_lt.mpr hlow)
  | cons node rest ih =>
    have htotal : totalCores (node :: rest) = node.2 + totalCores rest := rfl
    rw [ReplacedEmpty, List.pairwise_cons, ← ReplacedEmpty, ← ih (start + node.2), keptCores]
    split
    · rename_i hreplaced
      constructor
      · intro hall
        have hempty : node.2 = 0 := by
          by_contra hcores
          obtain ⟨core, hcore, hindex⟩ := List.mem_map.mp (hall start (Nat.le_refl _) (by omega))
          have hlow := (keptCores_bounds hcore).1
          omega
        exact ⟨fun _ _ _ => hempty, fun index hlow hhigh => hall index (by omega) (by omega)⟩
      · rintro ⟨hempty, hall⟩ index hlow hhigh
        obtain ⟨later, hlater, hid⟩ := List.mem_map.mp hreplaced
        have hzero := hempty later hlater hid.symm
        exact hall index (by omega) (by omega)
    · rename_i hlast
      rw [List.map_append, List.map_map]
      constructor
      · intro hall
        refine ⟨?_, ?_⟩
        · intro later hlater hid
          exact absurd (List.mem_map.mpr ⟨later, hlater, hid.symm⟩) hlast
        · intro index hlow hhigh
          obtain hown | hrest := List.mem_append.mp (hall index (by omega) (by omega))
          · obtain ⟨localCore, hlocal, hindex⟩ := List.mem_map.mp hown
            have hlocal := List.mem_range.mp hlocal
            simp only [Function.comp_apply] at hindex
            omega
          · exact hrest
      · rintro ⟨-, hall⟩ index hlow hhigh
        rw [List.mem_append]
        rcases Nat.lt_or_ge index (start + node.2) with hown | hrest
        · left
          refine List.mem_map.mpr ⟨index - start, List.mem_range.mpr (by omega), ?_⟩
          simp only [Function.comp_apply]
          omega
        · exact Or.inr (hall index hrest (by omega))

end Kept

section Shards

variable (globalSeed : ℤ) (nodes : List (String × ℕ)) (target : ℤ) (blockSize : ℕ)

/-- Whatever the ids, the shards returned are those of the kept cores. -/
theorem clusterShards_perm :
    (clusterShards globalSeed nodes target blockSize).Perm
      ((keptCores 0 nodes).map (coreShard globalSeed nodes target blockSize)) := by
  have hfiled := Dict.entries_setAll_empty_perm (filedShards globalSeed (totalCores nodes)
    (perCoreThroughput target (totalCores nodes)) blockSize 0 nodes)
  have hkept := lastEntries_filedShards globalSeed (totalCores nodes)
    (perCoreThroughput target (totalCores nodes)) blockSize 0 nodes
  have hshards := (hfiled.map Prod.snd).flatten
  rw [hkept] at hshards
  rw [clusterShards, generateClusterShards, clusterShardLoop_eq]
  exact hshards

/-- A kept core's shard strides over its column of the rows of all cores. -/
theorem coreShard_writeRange (core : (String × ℕ) × ℕ) (t : ℕ) :
    writeRange (coreShard globalSeed nodes target blockSize core) t =
      stridedBlock (totalCores nodes) blockSize core.2 t := rfl

/-- A kept core's seed is that of its global core index. -/
theorem coreShard_seed (core : (String × ℕ) × ℕ) :
    (coreShard globalSeed nodes target blockSize core).seed =
      splitmix64 (mask64 (Int.xor globalSeed core.2)) := rfl

/-- What the shards of a node list are, whether or not it repeats an id. -/
structure ShardsOfLast : Prop where
  /-- each id has the shards of its last node, at the indices of that node's cores -/
  shards : (clusterShards globalSeed nodes target blockSize).Perm
    ((keptCores 0 nodes).map (coreShard globalSeed nodes target blockSize))
  count : (clusterShards globalSeed nodes target blockSize).length =
    totalCores (Dict.lastEntries nodes)
  /-- no two shards ever write the same byte, nor one of them a byte twice -/
  disjoint : (clusterShards globalSeed nodes target blockSize).Pairwise fun left right =>
    ∀ t t', Disjoint (writeRange left t) (writeRange right t')
  advancing : ∀ spec ∈ clusterShards globalSeed nodes target blockSize, ∀ t t', t ≠ t' →
    Disjoint (writeRange spec t) (writeRange spec t')
  seeds : totalCores nodes ≤ 2 ^ 64 →
    ((clusterShards globalSeed nodes target blockSize).map WorkerShardSpec.seed).Nodup
  /-- every byte is written exactly when no replaced node has cores -/
  covered : (∀ position, ∃ spec ∈ clusterShards globalSeed nodes target blockSize,
    ∃ t, position ∈ writeRange spec t) ↔ ReplacedEmpty nodes

/-- A byte is written by the shard of its block's column, if there is one. -/
theorem written_iff (hsize : 1 ≤ blockSize) (hcores : 1 ≤ totalCores nodes) (position : ℕ) :
    (∃ spec ∈ clusterShards globalSeed nodes target blockSize, ∃ t, position ∈ writeRange spec t) ↔
      position / blockSize % totalCores nodes ∈ (keptCores 0 nodes).map Prod.snd := by
  have hmem (spec : WorkerShardSpec) : spec ∈ clusterShards globalSeed nodes target blockSize ↔
      spec ∈ (keptCores 0 nodes).map (coreShard globalSeed nodes target blockSize) :=
    (clusterShards_perm globalSeed nodes target blockSize).mem_iff
  constructor
  · rintro ⟨spec, hspec, t, hposition⟩
    obtain ⟨core, hcore, rfl⟩ := List.mem_map.mp ((hmem _).mp hspec)
    have hlane := (keptCores_bounds hcore).2
    rw [Nat.zero_add] at hlane
    rw [coreShard_writeRange, mem_stridedBlock_iff hsize hlane] at hposition
    exact List.mem_map.mpr ⟨core, hcore, hposition.1.symm⟩
  · intro hkept
    obtain ⟨core, hcore, hindex⟩ := List.mem_map.mp hkept
    refine ⟨_, (hmem _).mpr (List.mem_map.mpr ⟨core, hcore, rfl⟩),
      position / blockSize / totalCores nodes, ?_⟩
    rw [coreShard_writeRange, hindex]
    exact mem_stridedBlock_self hsize hcores position

/-- The shards of any node list never meet, and they tile the target exactly when no node that
a later one of its id replaces has cores. -/
theorem clusterShards_ofLast (hsize : 1 ≤ blockSize) (hcores : 1 ≤ totalCores nodes) :
    ShardsOfLast globalSeed nodes target blockSize := by
  have hperm := clusterShards_perm globalSeed nodes target blockSize
  have hlane {core : (String × ℕ) × ℕ} (hcore : core ∈ keptCores 0 nodes) :
      core.2 < totalCores nodes := by
    have hhigh := (keptCores_bounds hcore).2
    rwa [Nat.zero_add] at hhigh
  have hincreasing := List.pairwise_map.mp (keptCores_increasing 0 nodes)
  refine ⟨hperm, ?_, ?_, ?_, ?_, ?_⟩
  · rw [hperm.length_eq, List.length_map, keptCores_length]
  · rw [hperm.pairwise_iff fun {_ _} h t t' => (h t' t).symm, List.pairwise_map]
    apply hincreasing.imp_of_mem
    intro first second hfirst hsecond hlt t t'
    rw [coreShard_writeRange, coreShard_writeRange]
    apply stridedBlock_disjoint hsize (hlane hfirst) (hlane hsecond)
    rintro ⟨hequal, -⟩
    omega
  · intro spec hspec t t' hne
    obtain ⟨core, hcore, rfl⟩ := List.mem_map.mp (hperm.mem_iff.mp hspec)
    rw [coreShard_writeRange, coreShard_writeRange]
    apply stridedBlock_disjoint hsize (hlane hcore) (hlane hcore)
    exact fun hequal => hne hequal.2
  · intro htotal
    rw [(hperm.map WorkerShardSpec.seed).nodup_iff, List.map_map, List.Nodup, List.pairwise_map]
    apply hincreasing.imp_of_mem
    intro first second hfirst hsecond hlt hseed
    rw [Function.comp_apply, Function.comp_apply, coreShard_seed, coreShard_seed] at hseed
    have hsame := (workerSeed_eq_iff globalSeed first.2 second.2).mp hseed
    rw [Nat.mod_eq_of_lt ((hlane hfirst).trans_le htotal),
      Nat.mod_eq_of_lt ((hlane hsecond).trans_le htotal)] at hsame
    omega
  · rw [← keptCores_all_iff 0 nodes]
    simp only [written_iff globalSeed nodes target blockSize hsize hcores]
    constructor
    · intro hall index _ hindex
      rw [Nat.zero_add] at hindex
      have hblock := hall (index * blockSize)
      rwa [Nat.mul_div_cancel _ hsize, Nat.mod_eq_of_lt hindex] at hblock
    · intro hall position
      exact hall _ (Nat.zero_le _) (by rw [Nat.zero_add]; exact Nat.mod_lt _ hcores)

end Shards

/-- A node list whose third node takes the first one's id: the first node's two blocks of
every row of six are lost. -/
theorem clusterShards_ofLast_repeated :
    ShardsOfLast 42 [("node-0", 2), ("node-1", 1), ("node-0", 3)] 0 4096 :=
  clusterShards_ofLast 42 [("node-0", 2), ("node-1", 1), ("node-0", 3)] 0 4096 (by decide)
    (by decide)

end Steve.Orchestrator
