import Mathlib.Algebra.BigOperators.Field
import Mathlib.Tactic.FieldSimp
import Mathlib.Tactic.Ring
import Steve.Exceptions
import Steve.Orchestrator.Regrouping
import Steve.Orchestrator.Tiling

/-!
# The node failure simulation

A cluster is sharded, some of its last nodes are evicted, the rest is sharded again, and at last
the whole cluster once more. The integrity check at the end looks at base offsets only, and
those cannot repeat. What the shards show is more: the survivors keep their seeds and base
offsets, cover the whole address space, and yet write every block from their second one on
to another place than before.
-/

namespace Steve.Usecases

open Steve.Library
open Steve.Orchestrator

/-- The arguments of a simulation; only the cores of a node are a natural number, where the
source takes a negative integer as well. -/
structure ChaosParameters where
  initialNodes : ℤ
  coresPerNode : ℕ
  failedNodes : ℤ
  totalTargetSizeGb : ℤ
  heterogeneous : Bool

/-- The numbers a simulation prints, with the shards behind them. -/
structure ChaosReport where
  initialTotalCores : ℕ
  survivingTotalCores : ℕ
  evicted : List String
  initialShards : List WorkerShardSpec
  rebalancedShards : List WorkerShardSpec
  healedShards : List WorkerShardSpec
  initChi : ℚ
  initUniformStatus : String
  integrityPass : Bool
  exitCode : ℤ

/-- The block size of all shards. -/
def chaosBlockSize : ℕ := 1048576

/-- The seeds of each residue, counted one after the other. -/
def seedBuckets (seeds : List ℕ) (numBuckets : ℕ) : List ℕ :=
  seeds.foldl (fun buckets s => buckets.modify (s % numBuckets) (· + 1))
    (List.replicate numBuckets 0)

/-- The chi-squared statistic of the seeds' residues, as an exact rational, and its rating. -/
def calculateHashUniformity (seeds : List ℕ) (numBuckets : ℕ) : ℚ × String :=
  if seeds = [] then (0, "PERFECT")
  else
    let expected : ℚ := seeds.length / numBuckets
    let chiSq := ((seedBuckets seeds numBuckets).map fun (count : ℕ) =>
      ((count : ℚ) - expected) ^ 2 / expected).sum
    (chiSq, if chiSq < numBuckets * 2 then "EXCELLENT (UNIFORM)" else "ADEQUATE")

/-- The name of a node. -/
def chaosNodeName (i : ℤ) : String := "node-" ++ i.repr

/-- The cores of a node: 16, 8 and 4 in turn in a mixed cluster. -/
def nodeCores (params : ChaosParameters) (i : ℕ) : ℕ :=
  if params.heterogeneous then if i % 3 = 0 then 16 else if i % 3 = 1 then 8 else 4
  else params.coresPerNode

/-- The nodes at first. -/
def initialNodeSpecs (params : ChaosParameters) : List (String × ℕ) :=
  (List.range params.initialNodes.toNat).map fun (i : ℕ) => (chaosNodeName i, nodeCores params i)

/-- The nodes that survive, of which there is always one. -/
def survivingNodeSpecs (params : ChaosParameters) : List (String × ℕ) :=
  (initialNodeSpecs params).take (max 1 (params.initialNodes - params.failedNodes)).toNat

/-- The names of the evicted nodes. -/
def evictedNames (params : ChaosParameters) : List String :=
  (List.range params.failedNodes.toNat).map fun (i : ℕ) =>
    chaosNodeName (params.initialNodes - params.failedNodes + i)

/-- The shards of some nodes. -/
def chaosShards (params : ChaosParameters) (nodes : List (String × ℕ)) : List WorkerShardSpec :=
  clusterShards 42 nodes (params.totalTargetSizeGb * 1024 * 1024 * 1024) chaosBlockSize

/-- `len(set(base_offsets)) == len(shards)`. -/
def uniqueOffsets (shards : List WorkerShardSpec) : Bool :=
  (shards.map WorkerShardSpec.baseOffsetBytes).dedup.length = shards.length

/-- The report of a simulation. -/
def chaosReport (params : ChaosParameters) : ChaosReport :=
  let initialShards := chaosShards params (initialNodeSpecs params)
  let uniformity := calculateHashUniformity (initialShards.map WorkerShardSpec.seed) 16
  let rebalancedShards := chaosShards params (survivingNodeSpecs params)
  let healedShards := chaosShards params (initialNodeSpecs params)
  let integrityPass := uniqueOffsets rebalancedShards && uniqueOffsets healedShards
  { initialTotalCores := totalCores (initialNodeSpecs params)
    survivingTotalCores := totalCores (survivingNodeSpecs params)
    evicted := evictedNames params
    initialShards := initialShards
    rebalancedShards := rebalancedShards
    healedShards := healedShards
    initChi := uniformity.1
    initUniformStatus := uniformity.2
    integrityPass := integrityPass
    exitCode := if integrityPass then 0 else 1 }

/-- `run_chaos_simulation`: its report, or the exception of the failure percentage. -/
def runChaosSimulation (params : ChaosParameters) : Except PyException ChaosReport :=
  if params.initialNodes = 0 then .error ⟨.other "ZeroDivisionError", "division by zero"⟩
  else .ok (chaosReport params)

section Uniformity

/-- How many seeds have a residue. -/
def residueCount (seeds : List ℕ) (numBuckets r : ℕ) : ℕ := seeds.countP (· % numBuckets = r)

/-- One bucket more by one. -/
theorem modify_map_range (counts : ℕ → ℕ) (numBuckets i : ℕ) :
    ((List.range numBuckets).map counts).modify i (· + 1) =
      (List.range numBuckets).map fun r => counts r + if i = r then 1 else 0 := by
  apply List.ext_getElem
  · simp only [List.length_modify, List.length_map, List.length_range]
  · intro r h h'
    simp only [List.getElem_modify, List.getElem_map, List.getElem_range]
    split <;> rfl

/-- The buckets count the seeds of each residue. -/
theorem seedBuckets_eq (seeds : List ℕ) (numBuckets : ℕ) :
    seedBuckets seeds numBuckets = (List.range numBuckets).map (residueCount seeds numBuckets) := by
  induction seeds using List.reverseRecOn with
  | nil =>
    change List.replicate numBuckets 0 = (List.range numBuckets).map fun _ => 0
    rw [List.map_const', List.length_range]
  | append_singleton seeds seed ih =>
    rw [seedBuckets] at ih
    rw [seedBuckets, List.foldl_append, List.foldl_cons, List.foldl_nil, ih, modify_map_range]
    apply List.map_congr_left
    intro r _
    simp only [residueCount, List.countP_append, List.countP_singleton, decide_eq_true_eq]

/-- Each seed has one residue. -/
theorem sum_residueCount (seeds : List ℕ) {numBuckets : ℕ} (h : 0 < numBuckets) :
    ∑ r ∈ Finset.range numBuckets, residueCount seeds numBuckets r = seeds.length := by
  induction seeds with
  | nil => exact Finset.sum_const_zero
  | cons seed rest ih =>
    simp only [residueCount, List.countP_cons, decide_eq_true_eq] at ih ⊢
    rw [Finset.sum_add_distrib, ih, Finset.sum_ite_eq, List.length_cons,
      if_pos (Finset.mem_range.mpr (Nat.mod_lt seed h))]

/-- The statistic is the scaled sum of the squared counts, less the number of seeds. -/
theorem calculateHashUniformity_fst {seeds : List ℕ} (hne : seeds ≠ []) {numBuckets : ℕ}
    (h : 0 < numBuckets) :
    (calculateHashUniformity seeds numBuckets).1 =
      numBuckets * (∑ r ∈ Finset.range numBuckets, residueCount seeds numBuckets r ^ 2 : ℕ) /
        seeds.length - seeds.length := by
  have hlength : (seeds.length : ℚ) ≠ 0 :=
    Nat.cast_ne_zero.mpr (mt List.length_eq_zero_iff.mp hne)
  have hbuckets : (numBuckets : ℚ) ≠ 0 := Nat.cast_ne_zero.mpr (Nat.pos_iff_ne_zero.mp h)
  have htotal : (∑ r ∈ Finset.range numBuckets, (residueCount seeds numBuckets r : ℚ)) =
      seeds.length := by
    rw [← Nat.cast_sum, sum_residueCount seeds h]
  rw [calculateHashUniformity, if_neg hne, seedBuckets_eq]
  simp only [List.map_map]
  change ∑ r ∈ Finset.range numBuckets, ((residueCount seeds numBuckets r : ℚ) -
    seeds.length / numBuckets) ^ 2 / (seeds.length / numBuckets) = _
  rw [← Finset.sum_div]
  simp only [sub_sq, Finset.sum_add_distrib, Finset.sum_sub_distrib]
  rw [← Finset.sum_mul, ← Finset.mul_sum, htotal, Finset.sum_const, Finset.card_range,
    nsmul_eq_mul, Nat.cast_sum]
  simp only [Nat.cast_pow]
  field_simp
  ring

/-- The best rating, in whole numbers. -/
theorem calculateHashUniformity_snd (seeds : List ℕ) {numBuckets : ℕ} (h : 0 < numBuckets) :
    (calculateHashUniformity seeds numBuckets).2 = "EXCELLENT (UNIFORM)" ↔
      0 < seeds.length ∧ numBuckets * ∑ r ∈ Finset.range numBuckets,
        residueCount seeds numBuckets r ^ 2 < seeds.length * (seeds.length + numBuckets * 2) := by
  by_cases hne : seeds = []
  · have hperfect : (calculateHashUniformity seeds numBuckets).2 = "PERFECT" := by
      rw [calculateHashUniformity, if_pos hne]
    rw [hperfect, hne]
    exact ⟨fun hrating => absurd hrating (by decide),
      fun hpositive => absurd hpositive.1 (by decide)⟩
  have hpositive : 0 < seeds.length := List.length_pos_iff.mpr hne
  have hstatistic := calculateHashUniformity_fst hne h
  have hrating : (calculateHashUniformity seeds numBuckets).2 =
      if (calculateHashUniformity seeds numBuckets).1 < numBuckets * 2 then "EXCELLENT (UNIFORM)"
      else "ADEQUATE" := by
    rw [calculateHashUniformity, if_neg hne]
  have hcast : (calculateHashUniformity seeds numBuckets).1 < numBuckets * 2 ↔
      numBuckets * ∑ r ∈ Finset.range numBuckets, residueCount seeds numBuckets r ^ 2 <
        seeds.length * (seeds.length + numBuckets * 2) := by
    rw [hstatistic, sub_lt_iff_lt_add, div_lt_iff₀ (Nat.cast_pos.mpr hpositive),
      mul_comm _ (seeds.length : ℚ), add_comm _ (seeds.length : ℚ)]
    exact_mod_cast Iff.rfl
  rw [hrating, ← hcast]
  split
  next hbest => exact ⟨fun _ => ⟨hpositive, hbest⟩, fun _ => rfl⟩
  next hworse => exact ⟨fun hbest => absurd hbest (by decide), fun hbest => absurd hbest.2 hworse⟩

end Uniformity

section Names

/-- A minus sign is no digit. -/
theorem minus_notMem_toDigits (n : ℕ) : '-' ∉ Nat.toDigits 10 n := by
  intro hminus
  exact absurd (Nat.isDigit_of_mem_toDigits (by decide) (by decide) hminus) (by decide)

/-- Different numbers have different decimal texts. -/
theorem intRepr_injective : Function.Injective Int.repr := by
  intro i j h
  have hdigits {m n : ℕ} (h : Nat.toDigits 10 m = Nat.toDigits 10 n) : m = n := by
    rw [← Nat.ofDigitChars_ten_toDigits (n := m), h, Nat.ofDigitChars_ten_toDigits]
  have hnegative (m : ℕ) : (Int.repr (Int.negSucc m)).toList = '-' :: Nat.toDigits 10 (m + 1) := by
    simp only [Int.repr, String.toList_append, Nat.toList_repr]
    rfl
  have hpositive (m : ℕ) : (Int.repr (Int.ofNat m)).toList = Nat.toDigits 10 m :=
    Nat.toList_repr
  have h := congrArg String.toList h
  cases i with
  | ofNat m =>
    cases j with
    | ofNat n =>
      rw [hpositive, hpositive] at h
      rw [hdigits h]
    | negSucc n =>
      rw [hpositive, hnegative] at h
      exact absurd (h ▸ List.mem_cons_self) (minus_notMem_toDigits m)
  | negSucc m =>
    cases j with
    | ofNat n =>
      rw [hpositive, hnegative] at h
      exact absurd (h ▸ List.mem_cons_self) (minus_notMem_toDigits n)
    | negSucc n =>
      rw [hnegative, hnegative, List.cons.injEq] at h
      rw [Nat.succ.inj (hdigits h.2)]

/-- Different numbers make different names. -/
theorem chaosNodeName_injective : Function.Injective chaosNodeName := by
  intro i j h
  rw [chaosNodeName, chaosNodeName, String.append_right_inj] at h
  exact intRepr_injective h

variable (params : ChaosParameters)

/-- A name is evicted if its number is one of the last. -/
theorem mem_evictedNames (i : ℤ) :
    chaosNodeName i ∈ evictedNames params ↔
      params.initialNodes - params.failedNodes ≤ i ∧ i < params.initialNodes := by
  simp only [evictedNames, List.mem_map, List.mem_range, chaosNodeName_injective.eq_iff]
  constructor
  · intro h
    obtain ⟨j, hj, rfl⟩ := h
    omega
  · intro h
    exact ⟨(i - (params.initialNodes - params.failedNodes)).toNat, by omega, by omega⟩

/-- The first nodes are those with the first numbers. -/
theorem initialNodeSpecs_take (count : ℕ) :
    (initialNodeSpecs params).take count =
      (List.range (min count params.initialNodes.toNat)).map fun (i : ℕ) =>
        (chaosNodeName i, nodeCores params i) := by
  rw [initialNodeSpecs, ← List.map_take, List.take_range]

/-- No name occurs twice. -/
theorem initialNodeSpecs_nodup : ((initialNodeSpecs params).map Prod.fst).Nodup := by
  rw [initialNodeSpecs, List.map_map]
  apply List.Nodup.map _ List.nodup_range
  intro i j h
  exact Nat.cast_injective (chaosNodeName_injective h)

/-- Nor does one among the survivors. -/
theorem survivingNodeSpecs_nodup : ((survivingNodeSpecs params).map Prod.fst).Nodup := by
  rw [survivingNodeSpecs, List.map_take]
  exact (List.take_sublist _ _).nodup (initialNodeSpecs_nodup params)

end Names

section Shards

variable (params : ChaosParameters)

/-- The survivors' cores come first. -/
theorem clusterCores_surviving :
    clusterCores (initialNodeSpecs params) = clusterCores (survivingNodeSpecs params) ++
      clusterCores ((initialNodeSpecs params).drop
        (max 1 (params.initialNodes - params.failedNodes)).toNat) := by
  rw [survivingNodeSpecs, clusterCores, clusterCores, clusterCores, ← List.flatMap_append,
    List.take_append_drop]

/-- Every core gets a shard. -/
theorem chaosShards_length {nodes : List (String × ℕ)} (hids : (nodes.map Prod.fst).Nodup) :
    (chaosShards params nodes).length = totalCores nodes :=
  clusterShards_length 42 nodes _ chaosBlockSize hids

/-- A shard's position is one of a core. -/
theorem chaosShards_lt {nodes : List (String × ℕ)} (hids : (nodes.map Prod.fst).Nodup) {i : ℕ}
    (hi : i < (chaosShards params nodes).length) : i < (clusterCores nodes).length := by
  rw [clusterCores_length, ← chaosShards_length params hids]
  exact hi

/-- The shard at a position. -/
theorem chaosShards_getElem {nodes : List (String × ℕ)} (hids : (nodes.map Prod.fst).Nodup)
    (i : ℕ) (hi : i < (chaosShards params nodes).length)
    (hcore : i < (clusterCores nodes).length) :
    (chaosShards params nodes)[i] =
      shardSpec 42 (totalCores nodes)
        (perCoreThroughput (params.totalTargetSizeGb * 1024 * 1024 * 1024) (totalCores nodes))
        chaosBlockSize (clusterCores nodes)[i].1 (clusterCores nodes)[i].2 i := by
  simp only [chaosShards, clusterShards_eq _ _ _ _ hids, List.getElem_mapIdx]

/-- A shard writes its column of the rows of all cores. -/
theorem chaosShards_writeRange {nodes : List (String × ℕ)} (hids : (nodes.map Prod.fst).Nodup)
    (i : ℕ) (hi : i < (chaosShards params nodes).length) (t : ℕ) :
    writeRange (chaosShards params nodes)[i] t =
      stridedBlock (totalCores nodes) chaosBlockSize i t := by
  rw [chaosShards_getElem params hids i hi (chaosShards_lt params hids hi)]
  rfl

/-- Base offsets cannot repeat. -/
theorem uniqueOffsets_chaosShards {nodes : List (String × ℕ)}
    (hids : (nodes.map Prod.fst).Nodup) : uniqueOffsets (chaosShards params nodes) = true := by
  have hoffsets : (chaosShards params nodes).map WorkerShardSpec.baseOffsetBytes =
      (List.range (totalCores nodes)).map (· * chaosBlockSize) := by
    rw [chaosShards, clusterShards_eq _ _ _ _ hids]
    apply List.ext_getElem
    · simp only [List.length_map, List.length_mapIdx, clusterCores_length, List.length_range]
    · intro i _ _
      simp only [List.getElem_map, List.getElem_mapIdx, List.getElem_range, shardSpec]
  have hnodup : ((chaosShards params nodes).map WorkerShardSpec.baseOffsetBytes).Nodup := by
    rw [hoffsets]
    apply List.Nodup.map _ List.nodup_range
    intro i j h
    exact Nat.eq_of_mul_eq_mul_right (by decide) h
  rw [uniqueOffsets, hnodup.dedup, List.length_map, decide_eq_true_eq]

/-- A core belongs to a node. -/
theorem mem_clusterCores {nodes : List (String × ℕ)} {core : String × ℕ}
    (h : core ∈ clusterCores nodes) : ∃ node ∈ nodes, core.1 = node.1 := by
  rw [clusterCores, List.mem_flatMap] at h
  obtain ⟨node, hnode, hcore⟩ := h
  obtain ⟨localCore, -, rfl⟩ := List.mem_map.mp hcore
  exact ⟨node, hnode, rfl⟩

/-- Fewer nodes are evicted than there are: the shards of the evicted ones come last. -/
theorem nodeId_mem_evictedNames (hfailed : params.failedNodes < params.initialNodes) (i : ℕ)
    (hcore : i < (clusterCores (initialNodeSpecs params)).length) :
    (clusterCores (initialNodeSpecs params))[i].1 ∈ evictedNames params ↔
      totalCores (survivingNodeSpecs params) ≤ i := by
  have hcount : (max 1 (params.initialNodes - params.failedNodes)).toNat =
      (params.initialNodes - params.failedNodes).toNat := by omega
  have hcores := clusterCores_surviving params
  rw [hcount] at hcores
  rw [← clusterCores_length]
  simp only [hcores] at hcore ⊢
  rw [List.getElem_append]
  split
  next hsurviving =>
    obtain ⟨node, hnode, hid⟩ := mem_clusterCores (List.getElem_mem hsurviving)
    rw [survivingNodeSpecs, hcount, initialNodeSpecs_take, List.mem_map] at hnode
    obtain ⟨j, hj, rfl⟩ := hnode
    have hj := List.mem_range.mp hj
    rw [hid, mem_evictedNames]
    omega
  next hevicted =>
    have hlater : i - (clusterCores (survivingNodeSpecs params)).length <
        (clusterCores ((initialNodeSpecs params).drop
          (params.initialNodes - params.failedNodes).toNat)).length := by
      rw [List.length_append] at hcore
      omega
    obtain ⟨node, hnode, hid⟩ := mem_clusterCores (List.getElem_mem hlater)
    rw [List.mem_drop_iff_getElem] at hnode
    obtain ⟨j, hj, rfl⟩ := hnode
    rw [initialNodeSpecs, List.length_map, List.length_range] at hj
    rw [hid]
    simp only [initialNodeSpecs, List.getElem_map, List.getElem_range, mem_evictedNames]
    omega

/-- At least as many nodes are evicted as there are: every node is named, also the survivor. -/
theorem all_mem_evictedNames (hfailed : params.initialNodes ≤ params.failedNodes)
    {spec : WorkerShardSpec} (h : spec ∈ chaosShards params (initialNodeSpecs params)) :
    spec.nodeId ∈ evictedNames params := by
  have hids := initialNodeSpecs_nodup params
  rw [chaosShards, clusterShards_eq _ _ _ _ hids, List.mem_mapIdx] at h
  obtain ⟨i, hi, rfl⟩ := h
  obtain ⟨node, hnode, hid⟩ := mem_clusterCores (List.getElem_mem hi)
  obtain ⟨j, hj, rfl⟩ := List.mem_map.mp hnode
  have hj := List.mem_range.mp hj
  change (clusterCores (initialNodeSpecs params))[i].1 ∈ evictedNames params
  rw [hid, mem_evictedNames]
  omega

/-- The survivors keep everything but their strides and rates. -/
theorem chaosShards_kept (i : ℕ) (hi : i < (chaosShards params (survivingNodeSpecs params)).length)
    (hj : i < (chaosShards params (initialNodeSpecs params)).length) :
    (chaosShards params (survivingNodeSpecs params)).get ⟨i, hi⟩ =
      { (chaosShards params (initialNodeSpecs params)).get ⟨i, hj⟩ with
        strideBytes := totalCores (survivingNodeSpecs params) * chaosBlockSize
        targetThroughputBps := perCoreThroughput (params.totalTargetSizeGb * 1024 * 1024 * 1024)
          (totalCores (survivingNodeSpecs params)) } := by
  have hown := chaosShards_lt params (survivingNodeSpecs_nodup params) hi
  have hall := chaosShards_lt params (initialNodeSpecs_nodup params) hj
  have hsame : (clusterCores (initialNodeSpecs params))[i] =
      (clusterCores (survivingNodeSpecs params))[i] := by
    simp only [clusterCores_surviving params]
    exact List.getElem_append_left hown
  rw [List.get_eq_getElem, List.get_eq_getElem,
    chaosShards_getElem params (survivingNodeSpecs_nodup params) i hi hown,
    chaosShards_getElem params (initialNodeSpecs_nodup params) i hj hall, hsame]
  rfl

/-- A cluster with cores writes every byte. -/
theorem chaosShards_covered {nodes : List (String × ℕ)} (hids : (nodes.map Prod.fst).Nodup)
    (hcores : 0 < totalCores nodes) (position : ℕ) :
    ∃ spec ∈ chaosShards params nodes, ∃ t, position ∈ writeRange spec t := by
  have hlane : position / chaosBlockSize % totalCores nodes <
      (chaosShards params nodes).length := by
    rw [chaosShards_length params hids]
    exact Nat.mod_lt _ hcores
  refine ⟨_, List.getElem_mem hlane, position / chaosBlockSize / totalCores nodes, ?_⟩
  rw [chaosShards_writeRange params hids]
  exact mem_stridedBlock_self (by decide) hcores position

/-- A survivor's block stays in its place only if it is the first, or no core is lost. -/
theorem chaosShards_moved (i : ℕ)
    (hi : i < (chaosShards params (survivingNodeSpecs params)).length)
    (hj : i < (chaosShards params (initialNodeSpecs params)).length) (t : ℕ) :
    writeRange ((chaosShards params (survivingNodeSpecs params)).get ⟨i, hi⟩) t =
        writeRange ((chaosShards params (initialNodeSpecs params)).get ⟨i, hj⟩) t ↔
      t = 0 ∨ totalCores (survivingNodeSpecs params) = totalCores (initialNodeSpecs params) := by
  rw [List.get_eq_getElem, List.get_eq_getElem,
    chaosShards_writeRange params (survivingNodeSpecs_nodup params),
    chaosShards_writeRange params (initialNodeSpecs_nodup params)]
  exact stridedBlock_eq_iff (by decide) _ _ i t

/-- What the shards of a simulation show. -/
structure ChaosRecovered (report : ChaosReport) : Prop where
  passes : report.integrityPass = true ∧ report.exitCode = 0
  healed : report.healedShards = report.initialShards
  counts : report.initialShards.length = report.initialTotalCores ∧
    report.rebalancedShards.length = report.survivingTotalCores ∧
    report.survivingTotalCores ≤ report.initialTotalCores
  /-- the survivors keep everything but their strides and rates -/
  kept : ∀ (i : ℕ) (hi : i < report.rebalancedShards.length) (hj : i < report.initialShards.length),
    report.rebalancedShards[i] = { report.initialShards[i] with
      strideBytes := report.survivingTotalCores * chaosBlockSize
      targetThroughputBps := perCoreThroughput (params.totalTargetSizeGb * 1024 * 1024 * 1024)
        report.survivingTotalCores }
  /-- the other shards are those of the nodes named as evicted, if any node survives by count -/
  lost : params.failedNodes < params.initialNodes →
    ∀ (i : ℕ) (hi : i < report.initialShards.length),
      report.initialShards[i].nodeId ∈ report.evicted ↔ report.survivingTotalCores ≤ i
  /-- otherwise the survivor is named as well -/
  allNamed : params.initialNodes ≤ params.failedNodes →
    ∀ spec ∈ report.initialShards, spec.nodeId ∈ report.evicted
  /-- the survivors write every byte -/
  covered : 0 < report.survivingTotalCores →
    ∀ position, ∃ spec ∈ report.rebalancedShards, ∃ t, position ∈ writeRange spec t
  /-- but a block of theirs stays in its place only if it is their first, or no core is lost -/
  moved : ∀ (i : ℕ) (hi : i < report.rebalancedShards.length)
    (hj : i < report.initialShards.length) (t : ℕ),
    writeRange report.rebalancedShards[i] t = writeRange report.initialShards[i] t ↔
      t = 0 ∨ report.survivingTotalCores = report.initialTotalCores
  rating : report.initUniformStatus = "EXCELLENT (UNIFORM)" ↔
    0 < report.initialTotalCores ∧ 16 * ∑ r ∈ Finset.range 16,
        residueCount (report.initialShards.map WorkerShardSpec.seed) 16 r ^ 2 <
      report.initialTotalCores * (report.initialTotalCores + 32)

/-- Every simulation of at least one node passes its check. -/
theorem runChaosSimulation_recovers (hnodes : params.initialNodes ≠ 0) :
    ∃ report, runChaosSimulation params = .ok report ∧ ChaosRecovered params report := by
  have hinitial := initialNodeSpecs_nodup params
  have hsurviving := survivingNodeSpecs_nodup params
  have hfewer : totalCores (survivingNodeSpecs params) ≤ totalCores (initialNodeSpecs params) := by
    rw [← clusterCores_length, ← clusterCores_length, clusterCores_surviving, List.length_append]
    exact Nat.le_add_right _ _
  have hpasses : (chaosReport params).integrityPass = true := by
    change (uniqueOffsets _ && uniqueOffsets _) = true
    rw [uniqueOffsets_chaosShards params hsurviving, uniqueOffsets_chaosShards params hinitial]
    rfl
  have hrating := calculateHashUniformity_snd
    ((chaosShards params (initialNodeSpecs params)).map WorkerShardSpec.seed) (by decide : 0 < 16)
  rw [List.length_map, chaosShards_length params hinitial] at hrating
  refine ⟨chaosReport params, if_neg hnodes, ⟨hpasses, ?_⟩, rfl,
    ⟨chaosShards_length params hinitial, chaosShards_length params hsurviving, hfewer⟩,
    chaosShards_kept params, ?_, fun hfailed _ => all_mem_evictedNames params hfailed,
    chaosShards_covered params hsurviving, chaosShards_moved params, hrating⟩
  · change (if (chaosReport params).integrityPass then (0 : ℤ) else 1) = 0
    rw [hpasses, if_pos rfl]
  · intro hfailed i hi
    have hcore := chaosShards_lt params hinitial hi
    change (chaosShards params (initialNodeSpecs params))[i].nodeId ∈ evictedNames params ↔
      totalCores (survivingNodeSpecs params) ≤ i
    rw [chaosShards_getElem params hinitial i hi hcore]
    exact nodeId_mem_evictedNames params hfailed i hcore

end Shards

/-- Four nodes of two cores, one of which fails. -/
theorem runChaosSimulation_recovers_four_nodes :
    ∃ report, runChaosSimulation ⟨4, 2, 1, 1, false⟩ = .ok report ∧
      ChaosRecovered ⟨4, 2, 1, 1, false⟩ report :=
  runChaosSimulation_recovers ⟨4, 2, 1, 1, false⟩ (by decide)

end Steve.Usecases
