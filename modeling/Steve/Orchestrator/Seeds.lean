import Mathlib.Data.Set.Function
import Mathlib.Data.List.Nodup
import Steve.Library.WordMixing
import Steve.Orchestrator.Cluster

/-!
# Worker seeds are pairwise distinct

The SplitMix hash is a composition of invertible word steps, so it permutes the 64-bit
states. The hashed states are the global seed folded with distinct core indices; masking
to 64 bits keeps indices below `2 ^ 64` apart whatever the sign or width of the seed.
-/

namespace Steve.Orchestrator

open Steve.Library

/-- Masking is the word an integer denotes in two's complement. -/
theorem mask64_eq_toNat (value : ℤ) : mask64 value = (BitVec.ofInt 64 value).toNat := by
  rw [BitVec.toNat_ofInt]
  rfl

/-- A masked value fits in 64 bits. -/
theorem mask64_lt (value : ℤ) : mask64 value < 2 ^ 64 := by
  rw [mask64_eq_toNat]
  exact (BitVec.ofInt 64 value).isLt

/-- Masking a natural number takes its residue. -/
theorem mask64_natCast (value : ℕ) : mask64 value = value % 2 ^ 64 := by
  change ((value : ℤ) % ((2 ^ 64 : ℕ) : ℤ)).toNat = _
  rw [← Int.natCast_mod, Int.toNat_natCast]

/-- Masking keeps the low 64 bits and clears the others. -/
theorem testBit_mask64 (value : ℤ) (k : ℕ) :
    (mask64 value).testBit k = (decide (k < 64) && value.testBit k) := by
  cases value with
  | ofNat n =>
    change (mask64 (n : ℤ)).testBit k = _
    rw [mask64_natCast, Nat.testBit_mod_two_pow]
    rfl
  | negSucc n =>
    have hresidue : mask64 (Int.negSucc n) = 2 ^ 64 - (n % 2 ^ 64 + 1) := by
      rw [mask64, Int.negSucc_emod _ (by decide)]
      have hn : (n : ℤ) % 2 ^ 64 = ((n % 2 ^ 64 : ℕ) : ℤ) := by
        rw [Int.natCast_mod]
        rfl
      have hlt := Nat.mod_lt n (by decide : 0 < 2 ^ 64)
      rw [hn]
      omega
    rw [hresidue, Nat.testBit_two_pow_sub_succ (Nat.mod_lt n (by decide)),
      Nat.testBit_mod_two_pow]
    by_cases hk : k < 64
    · simp [hk, Int.testBit]
    · simp [hk]

/-- Masking an exclusive or folds the masked words. -/
theorem mask64_xor (left right : ℤ) :
    mask64 (Int.xor left right) = mask64 left ^^^ mask64 right := by
  apply Nat.eq_of_testBit_eq
  intro k
  rw [Nat.testBit_xor, testBit_mask64, testBit_mask64, testBit_mask64, Int.testBit_lxor]
  cases decide (k < 64) <;> simp

/-- The hash on 64-bit words. -/
def splitmixWord (state : BitVec 64) : BitVec 64 :=
  xorShift 31 (xorShift 27 (xorShift 30 (state + 0x9E3779B97F4A7C15#64) *
    0xBF58476D1CE4E5B9#64) * 0x94D049BB133111EB#64)

/-- The integer hash is the word hash of the state's low 64 bits. -/
theorem splitmix64_eq_toNat (state : ℤ) :
    splitmix64 state = (splitmixWord (BitVec.ofInt 64 state)).toNat := by
  have hmask (value : ℕ) : value &&& 0xFFFFFFFFFFFFFFFF = value % 2 ^ 64 :=
    Nat.and_two_pow_sub_one_eq_mod value 64
  have hstart : mask64 (state + 0x9E3779B97F4A7C15) =
      (BitVec.ofInt 64 state + 0x9E3779B97F4A7C15#64).toNat := by
    rw [mask64_eq_toNat, BitVec.ofInt_add]
    rfl
  have hstep (z : BitVec 64) (shift factor : ℕ) :
      (z.toNat ^^^ z.toNat >>> shift) * factor % 2 ^ 64 =
        (xorShift shift z * BitVec.ofNat 64 factor).toNat := by
    rw [BitVec.toNat_mul, xorShift, BitVec.toNat_xor, BitVec.toNat_ushiftRight,
      BitVec.toNat_ofNat, Nat.mul_mod_mod]
  have hlast (z : BitVec 64) : (z.toNat ^^^ z.toNat >>> 31) % 2 ^ 64 = (xorShift 31 z).toNat := by
    rw [xorShift, BitVec.toNat_xor, BitVec.toNat_ushiftRight]
    apply Nat.mod_eq_of_lt
    rw [← BitVec.toNat_ushiftRight, ← BitVec.toNat_xor]
    exact BitVec.isLt _
  simp only [splitmix64, hmask, hstart, hstep, hlast]
  rfl

/-- The word hash loses no information: each of its steps is invertible. -/
theorem splitmixWord_injective : Function.Injective splitmixWord :=
  (xorShift_injective (by decide)).comp
    ((mulConst_injective (by decide : 0x94D049BB133111EB#64 * 0x319642B2D24D8EC3#64 = 1#64)).comp
      ((xorShift_injective (by decide)).comp
        ((mulConst_injective
          (by decide : 0xBF58476D1CE4E5B9#64 * 0x96DE1B173F119089#64 = 1#64)).comp
          ((xorShift_injective (by decide)).comp (addConst_injective _)))))

/-- The word hash permutes the 64-bit words. -/
theorem splitmixWord_bijective : Function.Bijective splitmixWord :=
  bijective_of_injective splitmixWord_injective

/-- Hash values fit in 64 bits. -/
theorem splitmix64_lt (state : ℤ) : splitmix64 state < 2 ^ 64 := by
  rw [splitmix64_eq_toNat]
  exact (splitmixWord _).isLt

/-- Hash values agree exactly when the states agree in their low 64 bits. -/
theorem splitmix64_eq_iff (left right : ℤ) :
    splitmix64 left = splitmix64 right ↔ mask64 left = mask64 right := by
  rw [splitmix64_eq_toNat, splitmix64_eq_toNat, mask64_eq_toNat, mask64_eq_toNat,
    BitVec.toNat_inj, BitVec.toNat_inj, splitmixWord_injective.eq_iff]

/-- The hash permutes the 64-bit states. -/
theorem splitmix64_bijOn :
    Set.BijOn (fun state : ℕ => splitmix64 state) (Set.Iio (2 ^ 64)) (Set.Iio (2 ^ 64)) := by
  refine ⟨fun state _ => splitmix64_lt state, ?_, ?_⟩
  · intro left hleft right hright h
    have hmask := (splitmix64_eq_iff left right).mp h
    rwa [mask64_natCast, mask64_natCast, Nat.mod_eq_of_lt hleft, Nat.mod_eq_of_lt hright] at hmask
  · intro value hvalue
    obtain ⟨state, hstate⟩ := splitmixWord_bijective.2 (BitVec.ofNat 64 value)
    refine ⟨state.toNat, state.isLt, ?_⟩
    change splitmix64 (state.toNat : ℤ) = value
    rw [splitmix64_eq_toNat, BitVec.ofInt_natCast, BitVec.ofNat_toNat, BitVec.setWidth_eq, hstate,
      BitVec.toNat_ofNat, Nat.mod_eq_of_lt hvalue]

/-- Two cores' seeds agree exactly when their global indices agree modulo `2 ^ 64`. -/
theorem workerSeed_eq_iff (globalSeed : ℤ) (i j : ℕ) :
    splitmix64 (mask64 (Int.xor globalSeed i)) = splitmix64 (mask64 (Int.xor globalSeed j)) ↔
      i % 2 ^ 64 = j % 2 ^ 64 := by
  rw [splitmix64_eq_iff, mask64_natCast, mask64_natCast, Nat.mod_eq_of_lt (mask64_lt _),
    Nat.mod_eq_of_lt (mask64_lt _), mask64_xor, mask64_xor, mask64_natCast, mask64_natCast,
    Nat.xor_right_inj]

/-- Every core has a global seed that gives it any 64-bit seed. -/
theorem exists_globalSeed (i : ℕ) {value : ℕ} (h : value < 2 ^ 64) :
    ∃ globalSeed : ℤ, splitmix64 (mask64 (Int.xor globalSeed i)) = value := by
  obtain ⟨state, hstate, hvalue⟩ := splitmix64_bijOn.surjOn h
  refine ⟨(state ^^^ i : ℕ), ?_⟩
  change splitmix64 (mask64 ((state ^^^ i ^^^ i : ℕ) : ℤ)) = value
  rw [Nat.xor_xor_cancel_right, mask64_natCast, Nat.mod_eq_of_lt hstate]
  exact hvalue

/-- Every shard's seed fits in 64 bits. -/
theorem clusterShards_seed_lt {globalSeed : ℤ} {nodes : List (String × ℕ)} {target : ℤ}
    {blockSize : ℕ} {spec : WorkerShardSpec}
    (h : spec ∈ clusterShards globalSeed nodes target blockSize) : spec.seed < 2 ^ 64 := by
  obtain ⟨nodeId, localCore, index, rfl⟩ := mem_clusterShards h
  exact splitmix64_lt _

/-- On a cluster of at most `2 ^ 64` cores the hash, a permutation of the 64-bit states,
gives every worker its own 64-bit seed. -/
theorem clusterShards_seeds_distinct (globalSeed : ℤ) (nodes : List (String × ℕ)) (target : ℤ)
    (blockSize : ℕ) (hids : (nodes.map Prod.fst).Nodup) (hcores : totalCores nodes ≤ 2 ^ 64) :
    Set.BijOn (fun state : ℕ => splitmix64 state) (Set.Iio (2 ^ 64)) (Set.Iio (2 ^ 64)) ∧
      ((clusterShards globalSeed nodes target blockSize).map WorkerShardSpec.seed).Nodup ∧
      ∀ spec ∈ clusterShards globalSeed nodes target blockSize, spec.seed < 2 ^ 64 := by
  have hseed (i : ℕ) (hi : i < (clusterShards globalSeed nodes target blockSize).length) :
      (clusterShards globalSeed nodes target blockSize)[i].seed =
        splitmix64 (mask64 (Int.xor globalSeed i)) := by
    obtain ⟨nodeId, localCore, h⟩ :=
      clusterShards_getElem globalSeed nodes target blockSize hids i hi
    rw [h]
    rfl
  have hlength := clusterShards_length globalSeed nodes target blockSize hids
  refine ⟨splitmix64_bijOn, ?_, ?_⟩
  · rw [List.nodup_iff_injective_getElem]
    intro i j h
    have hi : i.val < totalCores nodes := by simpa [hlength] using i.isLt
    have hj : j.val < totalCores nodes := by simpa [hlength] using j.isLt
    simp only [List.getElem_map, hseed, workerSeed_eq_iff] at h
    apply Fin.ext
    omega
  · intro spec hspec
    exact clusterShards_seed_lt hspec

/-- Three cores on two nodes under a negative seed wider than 64 bits. -/
theorem clusterShards_seeds_distinct_three_cores :
    Set.BijOn (fun state : ℕ => splitmix64 state) (Set.Iio (2 ^ 64)) (Set.Iio (2 ^ 64)) ∧
      ((clusterShards (-2 ^ 70) [("node-0", 2), ("node-1", 1)] 0 4096).map
        WorkerShardSpec.seed).Nodup ∧
      ∀ spec ∈ clusterShards (-2 ^ 70) [("node-0", 2), ("node-1", 1)] 0 4096,
        spec.seed < 2 ^ 64 :=
  clusterShards_seeds_distinct (-2 ^ 70) [("node-0", 2), ("node-1", 1)] 0 4096 (by decide)
    (by decide)

end Steve.Orchestrator
