import Mathlib.Tactic.Linarith
import Steve.Library.OrderStatistics
import Steve.Validation.MetricCollector

/-!
# Percentiles and order statistics

The bound behind a percentile is the power of two of one order statistic: the latency whose
rank is the scanned one, with zero standing in at rank zero. It brackets that latency within
a factor of two. The scanned rank rounds the fraction of the operations down, so the bound
serves the rank rounded up only when the next latency is not above the power of two.
-/

namespace Steve.Validation

open Steve.Library

/-- A number lies below the power of two of its bit length. -/
theorem lt_two_pow_bitLength (n : ℕ) : n < 2 ^ bitLength n :=
  (bitLength_le_iff n _).mp (Nat.le_refl _)

/-- The power of two of a positive number's bit length is at most twice the number. -/
theorem two_pow_bitLength_le {n : ℕ} (h : 0 < n) : 2 ^ bitLength n ≤ 2 * n := by
  have hlog := Nat.log2_self_le (Nat.ne_of_gt h)
  rw [bitLength, if_neg (Nat.ne_of_gt h), Nat.pow_succ]
  omega

/-- Zero has bit length zero. -/
@[simp] theorem bitLength_zero : bitLength 0 = 0 := rfl

/-- The power of two of a bit length is at most twice any positive bound on the number. -/
theorem two_pow_bitLength_le_of_le {n bound : ℕ} (h : n ≤ bound) :
    2 ^ bitLength n ≤ 2 * max bound 1 := by
  rcases Nat.eq_zero_or_pos n with hzero | hpos
  · subst hzero
    rw [bitLength_zero, Nat.pow_zero]
    omega
  · have hle := two_pow_bitLength_le hpos
    omega

/-- Below the last bucket, the latencies bucketed up to an exponent are those below its power
of two. -/
theorem countP_bucketIndex_le {latencies : List ℕ}
    (h : ∀ latencyNs ∈ latencies, latencyNs < 2 ^ 63) (exponent : ℕ) :
    latencies.countP (fun latencyNs => decide (bucketIndex latencyNs ≤ exponent)) =
      countUpTo latencies (2 ^ exponent - 1) := by
  apply List.countP_congr
  intro latencyNs hmem
  have hlt := h latencyNs hmem
  have hpos := Nat.two_pow_pos exponent
  rw [decide_eq_true_eq, decide_eq_true_eq, bucketIndex_le_iff]
  constructor
  · intro hcase
    cases hcase with
    | inl htop =>
      have hpow : 2 ^ 63 ≤ 2 ^ exponent := Nat.pow_le_pow_right (by decide) htop
      omega
    | inr hsmall => omega
  · intro hle
    exact Or.inr (by omega)

namespace MetricCollector

/-- The bound behind a percentile is the power of two of the scanned order statistic. -/
theorem percentileNs_eq {latencies : List ℕ}
    (h : ∀ latencyNs ∈ latencies, latencyNs < 2 ^ 63) (p : ℚ) :
    (init.recordAll latencies).percentileNs p =
      2 ^ bitLength (nthSmallest latencies ((init.recordAll latencies).targetCount p)) := by
  obtain ⟨bucket, -, hvalue, hiff⟩ := percentileNs_spec latencies p
  have hbound (exponent : ℕ) : bucket ≤ exponent ↔
      bitLength (nthSmallest latencies ((init.recordAll latencies).targetCount p)) ≤ exponent := by
    have hpos := Nat.two_pow_pos exponent
    rw [hiff, countP_bucketIndex_le h, bitLength_le_iff,
      ← nthSmallest_le_iff (recordAll_targetCount_le latencies p)]
    omega
  rw [hvalue, Nat.le_antisymm ((hbound _).mpr (Nat.le_refl _)) ((hbound _).mp (Nat.le_refl _))]

/-- Within the unit interval the clamp does nothing. -/
theorem recordAll_targetCount (latencies : List ℕ) {p : ℚ} (h0 : 0 ≤ p) (h1 : p ≤ 1) :
    (init.recordAll latencies).targetCount p = ⌊p * latencies.length⌋₊ := by
  rw [targetCount, recordAll_totalOps, init, Nat.zero_add, max_eq_left h0, min_eq_left h1, mul_comm]

/-- The bound behind a percentile brackets the latency of the scanned rank within a factor of
two. -/
theorem percentileNs_factor_two (latencies : List ℕ)
    (h : ∀ latencyNs ∈ latencies, latencyNs < 2 ^ 63) (p : ℚ) (h0 : 0 ≤ p) (h1 : p ≤ 1)
    (hrank : 1 ≤ ⌊p * latencies.length⌋₊) :
    ∃ boundNs : ℕ, (init.recordAll latencies).percentileMs p = boundNs / 1000000 ∧
      (0 < nthSmallest latencies ⌊p * latencies.length⌋₊ →
        nthSmallest latencies ⌊p * latencies.length⌋₊ < boundNs ∧
          boundNs ≤ 2 * nthSmallest latencies ⌊p * latencies.length⌋₊) ∧
      (nthSmallest latencies ⌊p * latencies.length⌋₊ = 0 → boundNs = 1) := by
  have hne : latencies ≠ [] := by
    intro hnil
    rw [hnil, List.length_nil, Nat.cast_zero, mul_zero, Nat.floor_zero] at hrank
    omega
  refine ⟨(init.recordAll latencies).percentileNs p, percentileMs_eq hne p, ?_, ?_⟩
  · intro hpos
    rw [percentileNs_eq h, recordAll_targetCount latencies h0 h1]
    exact ⟨lt_two_pow_bitLength _, two_pow_bitLength_le hpos⟩
  · intro hzero
    rw [percentileNs_eq h, recordAll_targetCount latencies h0 h1, hzero, bitLength_zero,
      Nat.pow_zero]

/-- The median of three latencies. -/
theorem percentileNs_factor_two_median :
    ∃ boundNs : ℕ, (init.recordAll [7, 0, 100]).percentileMs (2 / 3) = boundNs / 1000000 ∧
      (0 < nthSmallest [7, 0, 100] ⌊(2 / 3 : ℚ) * 3⌋₊ →
        nthSmallest [7, 0, 100] ⌊(2 / 3 : ℚ) * 3⌋₊ < boundNs ∧
          boundNs ≤ 2 * nthSmallest [7, 0, 100] ⌊(2 / 3 : ℚ) * 3⌋₊) ∧
      (nthSmallest [7, 0, 100] ⌊(2 / 3 : ℚ) * 3⌋₊ = 0 → boundNs = 1) :=
  percentileNs_factor_two [7, 0, 100] (by decide) (2 / 3) (by norm_num) (by norm_num) (by norm_num)

/-- A bound serves the nearest rank of a fraction: enough latencies lie within it, and it is
within a factor of two of that rank's latency. -/
def NearestRank (latencies : List ℕ) (p : ℚ) (boundNs : ℕ) : Prop :=
  ⌈p * latencies.length⌉₊ ≤ countUpTo latencies boundNs ∧
    boundNs ≤ 2 * max (nthSmallest latencies ⌈p * latencies.length⌉₊) 1

/-- The bound behind a percentile serves the nearest rank exactly when the latency of the
rank rounded up is within the power of two of the latency of the rank rounded down. -/
theorem percentileNs_nearestRank_iff (latencies : List ℕ) (hne : latencies ≠ [])
    (h : ∀ latencyNs ∈ latencies, latencyNs < 2 ^ 63) (p : ℚ) (h0 : 0 < p) (h1 : p ≤ 1) :
    ∃ boundNs : ℕ, (init.recordAll latencies).percentileMs p = boundNs / 1000000 ∧
      (NearestRank latencies p boundNs ↔
        nthSmallest latencies ⌈p * latencies.length⌉₊ ≤
          2 ^ bitLength (nthSmallest latencies ⌊p * latencies.length⌋₊)) := by
  refine ⟨(init.recordAll latencies).percentileNs p, percentileMs_eq hne p, ?_⟩
  have hceil : ⌈p * latencies.length⌉₊ ≤ latencies.length := by
    rw [Nat.ceil_le]
    exact mul_le_of_le_one_left (Nat.cast_nonneg _) h1
  have hranks : ⌊p * latencies.length⌋₊ ≤ ⌈p * latencies.length⌉₊ := Nat.floor_le_ceil _
  rw [NearestRank, ← nthSmallest_le_iff hceil, percentileNs_eq h,
    recordAll_targetCount latencies (le_of_lt h0) h1]
  constructor
  · intro hserved
    exact hserved.1
  · intro hle
    exact ⟨hle, two_pow_bitLength_le_of_le (nthSmallest_mono hranks hceil)⟩

/-- Two operations at the median. -/
theorem percentileNs_nearestRank_iff_two_operations :
    ∃ boundNs : ℕ, (init.recordAll [3, 900]).percentileMs (1 / 2) = boundNs / 1000000 ∧
      (NearestRank [3, 900] (1 / 2) boundNs ↔
        nthSmallest [3, 900] ⌈(1 / 2 : ℚ) * 2⌉₊ ≤
          2 ^ bitLength (nthSmallest [3, 900] ⌊(1 / 2 : ℚ) * 2⌋₊)) :=
  percentileNs_nearestRank_iff [3, 900] (by decide) (by decide) (1 / 2) (by norm_num) (by norm_num)

/-- A single operation of a microsecond is reported as a nanosecond at the 99th percentile. -/
theorem percentileNs_not_nearestRank :
    (init.recordAll [1000]).p99LatencyMs = (1 : ℕ) / 1000000 ∧
      ¬ NearestRank [1000] (99 / 100) 1 := by
  refine ⟨by decide +kernel, ?_⟩
  intro hserved
  have hcount : countUpTo [1000] 1 = 0 := by decide
  have hrank : ⌈(99 / 100 : ℚ) * ([1000] : List ℕ).length⌉₊ = 1 := by
    rw [Nat.ceil_eq_iff (by decide)]
    norm_num
  have hle := hserved.1
  omega

end MetricCollector

end Steve.Validation
