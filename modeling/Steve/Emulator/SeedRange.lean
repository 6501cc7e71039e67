import Steve.Emulator.NodeWrites
import Steve.Orchestrator.Seeds

/-!
# When the seeds of an emulated worker leave the 64-bit range

The generator masks every shard seed to 64 bits, but the worker adds its operation count and
masks nothing. So an operation's mask fits an unsigned 64-bit word exactly when the shard seed
and the number of the operation add up to less than `2 ^ 64`. The hash permutes the 64-bit
states, so every core of every cluster has a global seed that brings it as close to the bound
as one likes.
-/

namespace Steve.Emulator

open Steve.Orchestrator
open Steve.Payload

/-- The value a call's mask is built from fits an unsigned 64-bit word. -/
def EntropyCall.MaskFits (call : EntropyCall) : Prop :=
  0 ≤ Int.xor call.seed 0x5555555555555555 ∧ Int.xor call.seed 0x5555555555555555 < 2 ^ 64

/-- The seeds of a run yield masks that fit, and none of them ends the run. -/
structure SeedsInRange (run : NodeRun) : Prop where
  fits : ∀ call ∈ run.entropyCalls, call.MaskFits
  unkilled : ∀ call ∈ run.entropyCalls, call.raised = none

section Run

variable (nodeId : String) (coreId : ℕ) (spec : WorkerShardSpec) (targetPath : String)
  (env : NodeEnvironment)

/-- The call of an operation that a run begins is in its log. -/
theorem entropyCall_mem {k : ℕ}
    (hk : k < (runSimulatedNodeWorker nodeId coreId spec targetPath env).entropyCalls.length) :
    entropyCall spec k ∈
      (runSimulatedNodeWorker nodeId coreId spec targetPath env).entropyCalls := by
  rw [run_calls]
  exact List.mem_map_of_mem (List.mem_range.mpr hk)

/-- As long as no mask stops a run, it begins every operation it reaches. -/
theorem begins_of_reached {k : ℕ} (hreached : Reaches spec env nodeId coreId targetPath k)
    (hbuilds : ∀ j < k,
      j < (runSimulatedNodeWorker nodeId coreId spec targetPath env).entropyCalls.length →
        MaskBuilds spec j) :
    k < (runSimulatedNodeWorker nodeId coreId spec targetPath env).entropyCalls.length := by
  rw [run_begins_iff]
  refine ⟨hreached, ?_⟩
  intro j
  induction j using Nat.strong_induction_on with
  | h j ih =>
    intro hj
    have hearlier : Reaches spec env nodeId coreId targetPath j :=
      ⟨hreached.mapped, hreached.opened, Nat.lt_trans hj hreached.timed,
        fun i hi => hreached.earlier i (Nat.lt_trans hi hj)⟩
    refine hbuilds j hj ((run_begins_iff spec env nodeId coreId targetPath j).mpr ?_)
    exact ⟨hearlier, fun i hi => ih i hi (Nat.lt_trans hi hj)⟩

/-- A run whose seeds are in range reaches no operation beyond the range. -/
theorem SeedsInRange.seed_lt {nodeId : String} {coreId : ℕ} {spec : WorkerShardSpec}
    {targetPath : String} {env : NodeEnvironment}
    (h : SeedsInRange (runSimulatedNodeWorker nodeId coreId spec targetPath env)) {k : ℕ}
    (hreached : Reaches spec env nodeId coreId targetPath k) : spec.seed + k < 2 ^ 64 := by
  have hfits (j : ℕ)
      (hj : j <
        (runSimulatedNodeWorker nodeId coreId spec targetPath env).entropyCalls.length) :
      spec.seed + j < 2 ^ 64 :=
    (maskValue_fits_iff (spec.seed + j)).mp
      (h.fits _ (entropyCall_mem nodeId coreId spec targetPath env hj))
  exact hfits k (begins_of_reached nodeId coreId spec targetPath env hreached
    fun j _ hj => Or.inr (hfits j hj))

/-- No operation is begun without being reached. -/
theorem reached_of_mem {call : EntropyCall}
    (hcall : call ∈ (runSimulatedNodeWorker nodeId coreId spec targetPath env).entropyCalls) :
    ∃ k, call = entropyCall spec k ∧ Reaches spec env nodeId coreId targetPath k := by
  rw [run_calls] at hcall
  obtain ⟨k, hk, rfl⟩ := List.mem_map.mp hcall
  exact ⟨k, rfl, ((run_begins_iff spec env nodeId coreId targetPath k).mp
    (List.mem_range.mp hk)).1⟩

/-- No call of a run raises exactly when its blocks hold no whole word, or every operation it
reaches has a seed of 64 bits. -/
theorem unkilled_iff :
    (∀ call ∈ (runSimulatedNodeWorker nodeId coreId spec targetPath env).entropyCalls,
        call.raised = none) ↔
      spec.blockSizeBytes < 8 ∨
        ∀ k, Reaches spec env nodeId coreId targetPath k → spec.seed + k < 2 ^ 64 := by
  constructor
  · intro h
    have hbuilds (j : ℕ) (hj : j <
        (runSimulatedNodeWorker nodeId coreId spec targetPath env).entropyCalls.length) :
        MaskBuilds spec j := by
      by_contra hmask
      have hraised := h _ (entropyCall_mem nodeId coreId spec targetPath env hj)
      rw [entropyCall, if_neg hmask] at hraised
      cases hraised
    by_cases hsize : spec.blockSizeBytes < 8
    · exact Or.inl hsize
    · refine Or.inr fun k hreached => ?_
      exact (hbuilds k (begins_of_reached nodeId coreId spec targetPath env hreached
        fun j _ hj => hbuilds j hj)).resolve_left hsize
  · intro h call hcall
    obtain ⟨k, rfl, hreached⟩ := reached_of_mem nodeId coreId spec targetPath env hcall
    exact if_pos (h.imp id fun hseeds => hseeds k hreached)

/-- The seeds of a run are in range exactly when the shard seed and the number of every
operation that the run reaches add up to less than `2 ^ 64`. -/
theorem seedsInRange_iff :
    SeedsInRange (runSimulatedNodeWorker nodeId coreId spec targetPath env) ↔
      ∀ k, Reaches spec env nodeId coreId targetPath k → spec.seed + k < 2 ^ 64 := by
  constructor
  · intro h k hreached
    exact h.seed_lt hreached
  · intro h
    refine ⟨?_, (unkilled_iff nodeId coreId spec targetPath env).mpr (Or.inr h)⟩
    intro call hcall
    obtain ⟨k, rfl, hreached⟩ := reached_of_mem nodeId coreId spec targetPath env hcall
    exact (maskValue_fits_iff (spec.seed + k)).mpr (h k hreached)

end Run

/-- No core is safe: whatever the cluster, it has a global seed that takes the core's worker out
of range in any operation but the first, if it gets there. -/
theorem exists_globalSeed_out_of_range (nodes : List (String × ℕ)) (target : ℤ)
    (blockSize : ℕ) (hids : (nodes.map Prod.fst).Nodup) (i : ℕ) {k : ℕ} (hfirst : 0 < k)
    (hk : k ≤ 2 ^ 64) :
    ∃ globalSeed, ∀ (hi : i < (clusterShards globalSeed nodes target blockSize).length)
      (nodeId : String) (coreId : ℕ) (targetPath : String) (env : NodeEnvironment),
      Reaches (clusterShards globalSeed nodes target blockSize)[i] env nodeId coreId targetPath k →
        ¬ SeedsInRange (runSimulatedNodeWorker nodeId coreId
          (clusterShards globalSeed nodes target blockSize)[i] targetPath env) := by
  obtain ⟨globalSeed, hseed⟩ := exists_globalSeed i (by omega : 2 ^ 64 - k < 2 ^ 64)
  refine ⟨globalSeed, fun hi nodeId coreId targetPath env hreached hrange => ?_⟩
  have hlt := hrange.seed_lt hreached
  obtain ⟨shardNode, localCore, hspec⟩ :=
    clusterShards_getElem globalSeed nodes target blockSize hids i hi
  have hshard : (clusterShards globalSeed nodes target blockSize)[i].seed = 2 ^ 64 - k := by
    rw [hspec]
    exact hseed
  omega

/-- The only shard of a cluster under this global seed has the largest 64-bit seed, so its
second operation is out of range. -/
theorem seeds_leave_range :
    ∃ spec ∈ clusterShards 0x31628AF67B2131AB [("node-00", 1)] 0 4096,
      ¬ SeedsInRange (runSimulatedNodeWorker "node-00" 0 spec "/tmp/cluster_sim"
        (acceptingNode 4096 2)) := by
  have hshards : clusterShards 0x31628AF67B2131AB [("node-00", 1)] 0 4096 =
      [⟨"node-00", 0, 2 ^ 64 - 1, 0, 4096, 4096, 0⟩] := by decide
  rw [hshards]
  refine ⟨_, List.mem_singleton_self _, fun h => ?_⟩
  have hsecond := h.seed_lt (k := 1)
    ⟨⟨_, rfl⟩, ⟨_, rfl⟩, by decide, fun _ _ => ⟨rfl, _, rfl⟩⟩
  exact absurd hsecond (by decide)

end Steve.Emulator
