import Steve.Orchestrator.WorkerWrites

/-!
# When the payloads of a run are pairwise distinct

A worker folds the same mask into the same buffer at every operation, so its payloads
alternate between the masked block and zeros. Its third payload repeats the first, any two
second payloads are both zeros, and the zeros also meet a first payload whose mask is zero.
Different workers' masks differ as long as their global core indices differ in 64 bits.
-/

namespace Steve.Orchestrator

open Steve.Library
open Steve.Payload

/-- Distinct writes of a run never carry equal bytes. -/
def PayloadsDistinct {workers : ℕ} (writes : Fin workers → List WriteCall) : Prop :=
  ∀ (i j : Fin workers) (s t : ℕ) (hs : s < (writes i).length) (ht : t < (writes j).length),
    (i, s) ≠ (j, t) → (writes i)[s].payload.view ≠ (writes j)[t].payload.view

/-- The hash state whose seed cancels the fixed pattern of the payload mask. -/
def zeroMaskState : ℕ := 0x70A618EA11CE50DE

/-- The write counts of a run that keep its payloads pairwise distinct. -/
structure DistinctCounts (globalSeed : ℤ) {workers : ℕ} (counts : Fin workers → ℕ) : Prop where
  /-- no worker writes a third time -/
  atMostTwo : ∀ i, counts i ≤ 2
  /-- at most one worker writes a second time -/
  oneSecond : ∀ i j, counts i = 2 → counts j = 2 → i = j
  /-- next to a second write no writing worker's mask is zero -/
  nonzeroMask : ∀ i j, counts i = 2 → 1 ≤ counts j →
    mask64 (Int.xor globalSeed j) ≠ zeroMaskState
  /-- writing workers differ in the low 64 bits of their global core indices -/
  indices : ∀ i j, 1 ≤ counts i → 1 ≤ counts j → (i : ℕ) % 2 ^ 64 = j % 2 ^ 64 → i = j

/-- The seed of the worker at a global core index. -/
def workerSeed (globalSeed : ℤ) (i : ℕ) : ℕ := splitmix64 (mask64 (Int.xor globalSeed i))

/-- Worker seeds fit in 64 bits. -/
theorem workerSeed_lt (globalSeed : ℤ) (i : ℕ) : workerSeed globalSeed i < 2 ^ 64 :=
  splitmix64_lt _

/-- A worker's payload mask is zero exactly in one hash state. -/
theorem seedMask_workerSeed_eq_zero_iff (globalSeed : ℤ) (i : ℕ) :
    seedMask (workerSeed globalSeed i) = 0#64 ↔
      mask64 (Int.xor globalSeed i) = zeroMaskState := by
  have hpattern : seedMask 0x5555555555555555 = 0#64 := by decide
  have hstate : splitmix64 zeroMaskState = 0x5555555555555555 := by decide
  have hmask : mask64 zeroMaskState = zeroMaskState := by decide
  rw [← hpattern, seedMask_inj (workerSeed_lt _ _) (by decide), workerSeed, ← hstate,
    splitmix64_eq_iff, mask64_natCast, Nat.mod_eq_of_lt (mask64_lt _), hmask]

/-- Two workers' payload masks agree exactly when their indices agree in 64 bits. -/
theorem seedMask_workerSeed_eq_iff (globalSeed : ℤ) (i j : ℕ) :
    seedMask (workerSeed globalSeed i) = seedMask (workerSeed globalSeed j) ↔
      i % 2 ^ 64 = j % 2 ^ 64 := by
  rw [seedMask_inj (workerSeed_lt _ _) (workerSeed_lt _ _)]
  exact workerSeed_eq_iff globalSeed i j

/-- The mask worker `i`'s `t`-th payload carries. -/
def payloadMask (globalSeed : ℤ) (i t : ℕ) : BitVec 64 :=
  accumulatedMask (workerSeed globalSeed i) (t + 1)

@[simp] theorem payloadMask_one (globalSeed : ℤ) (i : ℕ) : payloadMask globalSeed i 1 = 0#64 := rfl

/-- Payload masks repeat with period two. -/
theorem payloadMask_two (globalSeed : ℤ) (i : ℕ) :
    payloadMask globalSeed i 2 = payloadMask globalSeed i 0 := rfl

/-- The masks of a run are pairwise distinct exactly when its write counts are small
enough and its workers' seeds are apart. -/
theorem payloadMasks_distinct_iff (globalSeed : ℤ) {workers : ℕ} (counts : Fin workers → ℕ) :
    (∀ (i j : Fin workers) (s t : ℕ), s < counts i → t < counts j → (i, s) ≠ (j, t) →
        payloadMask globalSeed i s ≠ payloadMask globalSeed j t) ↔
      DistinctCounts globalSeed counts := by
  constructor
  · intro h
    refine ⟨?_, ?_, ?_, ?_⟩
    · intro i
      by_contra hthree
      exact h i i 0 2 (by omega) (by omega) (by simp) (payloadMask_two globalSeed i).symm
    · intro i j hi hj
      by_contra hne
      exact h i j 1 1 (by omega) (by omega) (by simp [hne])
        (by rw [payloadMask_one, payloadMask_one])
    · intro i j hi hj hstate
      have hzero := (seedMask_workerSeed_eq_zero_iff globalSeed j).mpr hstate
      exact h i j 1 0 (by omega) (by omega) (by simp) hzero.symm
    · intro i j hi hj hindex
      by_contra hne
      exact h i j 0 0 (by omega) (by omega) (by simp [hne])
        ((seedMask_workerSeed_eq_iff globalSeed i j).mpr hindex)
  · intro h i j s t hs ht hne heq
    have hi := h.atMostTwo i
    have hj := h.atMostTwo j
    obtain rfl | rfl : s = 0 ∨ s = 1 := by omega
    · obtain rfl | rfl : t = 0 ∨ t = 1 := by omega
      · have hindex := (seedMask_workerSeed_eq_iff globalSeed i j).mp heq
        exact hne (by rw [h.indices i j (by omega) (by omega) hindex])
      · exact h.nonzeroMask j i (by omega) (by omega)
          ((seedMask_workerSeed_eq_zero_iff globalSeed i).mp heq)
    · obtain rfl | rfl : t = 0 ∨ t = 1 := by omega
      · exact h.nonzeroMask i j (by omega) (by omega)
          ((seedMask_workerSeed_eq_zero_iff globalSeed j).mp heq.symm)
      · exact hne (by rw [h.oneSecond i j (by omega) (by omega)])

/-- Each payload of a run is the block its mask fills. -/
theorem clusterShards_payload (globalSeed : ℤ) (nodes : List (String × ℕ)) (target : ℤ)
    (blockSize : ℕ) (hids : (nodes.map Prod.fst).Nodup)
    (i : Fin (clusterShards globalSeed nodes target blockSize).length) (run : WorkerRun) (t : ℕ)
    (ht : t < (run.writes (clusterShards globalSeed nodes target blockSize)[i]).length) :
    (run.writes (clusterShards globalSeed nodes target blockSize)[i])[t].payload.view =
      blockAfter (workerSeed globalSeed i) blockSize (t + 1) := by
  obtain ⟨nodeId, localCore, hspec⟩ :=
    clusterShards_getElem globalSeed nodes target blockSize hids i i.isLt
  have hseed : (clusterShards globalSeed nodes target blockSize)[i].seed =
      workerSeed globalSeed i := congrArg WorkerShardSpec.seed hspec
  have hsize : (clusterShards globalSeed nodes target blockSize)[i].blockSizeBytes = blockSize :=
    congrArg WorkerShardSpec.blockSizeBytes hspec
  obtain ⟨address, h⟩ := run.writes_getElem (hseed ▸ workerSeed_lt _ _) t ht
  rw [h, shardWrite, hseed, hsize]

/-- Whatever the adapters and surroundings of the workers, the payloads of a run are
pairwise distinct exactly when the numbers of writes its workers make are as in
`DistinctCounts`. -/
theorem clusterShards_payloadsDistinct_iff (globalSeed : ℤ) (nodes : List (String × ℕ))
    (target : ℤ) (blockSize : ℕ) (hids : (nodes.map Prod.fst).Nodup) (hpos : 0 < blockSize)
    (hwords : 8 ∣ blockSize)
    (runs : Fin (clusterShards globalSeed nodes target blockSize).length → WorkerRun)
    (counts : Fin (clusterShards globalSeed nodes target blockSize).length → ℕ)
    (hcounts : ∀ i, ((runs i).writes
      (clusterShards globalSeed nodes target blockSize)[i]).length = counts i) :
    PayloadsDistinct (fun i => (runs i).writes
        (clusterShards globalSeed nodes target blockSize)[i]) ↔
      DistinctCounts globalSeed counts := by
  rw [← payloadMasks_distinct_iff]
  have hpayload (i j : Fin (clusterShards globalSeed nodes target blockSize).length) (s t : ℕ)
      (hs : s < ((runs i).writes (clusterShards globalSeed nodes target blockSize)[i]).length)
      (ht : t < ((runs j).writes (clusterShards globalSeed nodes target blockSize)[j]).length) :
      (((runs i).writes (clusterShards globalSeed nodes target blockSize)[i])[s].payload.view =
        ((runs j).writes (clusterShards globalSeed nodes target blockSize)[j])[t].payload.view) ↔
      payloadMask globalSeed i s = payloadMask globalSeed j t := by
    rw [clusterShards_payload globalSeed nodes target blockSize hids,
      clusterShards_payload globalSeed nodes target blockSize hids,
      blockAfter_eq_iff hpos hwords, payloadMask, payloadMask]
  constructor
  · intro h i j s t hs ht hne heq
    have hs' := (hcounts i).symm ▸ hs
    have ht' := (hcounts j).symm ▸ ht
    exact h i j s t hs' ht' hne ((hpayload i j s t hs' ht').mpr heq)
  · intro h i j s t hs ht hne heq
    exact h i j s t (hcounts i ▸ hs) (hcounts j ▸ ht) hne ((hpayload i j s t hs ht).mp heq)

/-- Two workers on two nodes that write twice each. -/
theorem clusterShards_payloadsDistinct_iff_two_nodes :
    PayloadsDistinct (fun i : Fin (clusterShards 42 [("node-0", 1), ("node-1", 1)] 0 8).length =>
        (acceptingRun 1 1).writes (clusterShards 42 [("node-0", 1), ("node-1", 1)] 0 8)[i]) ↔
      DistinctCounts 42
        fun _ : Fin (clusterShards 42 [("node-0", 1), ("node-1", 1)] 0 8).length => 2 :=
  clusterShards_payloadsDistinct_iff 42 [("node-0", 1), ("node-1", 1)] 0 8 (by decide) (by decide)
    (by decide) (fun _ => acceptingRun 1 1) (fun _ => 2) (by decide +kernel)

/-- Of one worker's two batches of two writes, the second starts with the first payload again. -/
theorem payloads_repeat_on_one_core :
    ¬ PayloadsDistinct (fun i : Fin (clusterShards 42 [("node-0", 1)] 0 8).length =>
        (acceptingRun 2 1).writes (clusterShards 42 [("node-0", 1)] 0 8)[i]) := by
  intro h
  exact h ⟨0, by decide⟩ ⟨0, by decide⟩ 0 2 (by decide +kernel) (by decide +kernel) (by decide)
    (by decide +kernel)

end Steve.Orchestrator
