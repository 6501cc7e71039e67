import Mathlib.Data.Nat.Log
import Mathlib.Data.Rat.Floor
import Mathlib.Data.List.Flatten
import Steve.Library.CumulativeScan

/-!
# The latency histogram collector

A latency goes into the bucket of its bit length, with the last bucket taking every longer
one; operation and byte counts and the extreme latencies are kept beside the buckets. A
percentile is the upper bound of the first bucket at which the cumulative count reaches
the rank. The rank is the product of the operation count and the clamped fraction,
rounded down, with the fraction read as an exact rational.
-/

namespace Steve.Validation

open Steve.Library

/-- `n.bit_length()` of a non-negative integer. -/
def bitLength (n : ℕ) : ℕ := if n = 0 then 0 else n.log2 + 1

/-- The bucket of a latency. -/
def bucketIndex (latencyNs : ℕ) : ℕ :=
  if 64 ≤ bitLength latencyNs then 63 else bitLength latencyNs

/-- The histogram and its totals. -/
structure MetricCollector where
  buckets : List ℕ
  bucketsLength : buckets.length = 64
  totalOps : ℕ
  totalBytes : ℕ
  minLatencyNs : ℕ
  maxLatencyNs : ℕ

namespace MetricCollector

/-- A collector with nothing recorded. -/
def init : MetricCollector where
  buckets := List.replicate 64 0
  bucketsLength := List.length_replicate
  totalOps := 0
  totalBytes := 0
  minLatencyNs := 0xFFFFFFFFFFFFFFFF
  maxLatencyNs := 0

/-- Count one operation's latency. -/
def recordLatency (collector : MetricCollector) (latencyNs : ℕ) : MetricCollector where
  buckets := collector.buckets.modify (bucketIndex latencyNs) (· + 1)
  bucketsLength := by rw [List.length_modify, collector.bucketsLength]
  totalOps := collector.totalOps + 1
  totalBytes := collector.totalBytes
  minLatencyNs :=
    if latencyNs < collector.minLatencyNs then latencyNs else collector.minLatencyNs
  maxLatencyNs :=
    if latencyNs > collector.maxLatencyNs then latencyNs else collector.maxLatencyNs

/-- Count transferred bytes. -/
def recordBytes (collector : MetricCollector) (byteCount : ℕ) : MetricCollector :=
  { collector with totalBytes := collector.totalBytes + byteCount }

/-- The rank a fraction asks for: `int(total_ops * min(max(p, 0.0), 1.0))`. -/
def targetCount (collector : MetricCollector) (p : ℚ) : ℕ :=
  ⌊(collector.totalOps : ℚ) * min (max p 0) 1⌋₊

/-- The representative latency of a bucket, its upper bound in nanoseconds. -/
def upperBoundNs (bucket : ℕ) : ℕ := if 0 < bucket then 1 <<< bucket else 1

/-- The nanosecond bound behind a percentile of a nonempty collector. -/
def percentileNs (collector : MetricCollector) (p : ℚ) : ℕ :=
  match cumulativeScan (collector.targetCount p) collector.buckets with
  | some bucket => upperBoundNs bucket
  | none => collector.maxLatencyNs

/-- A percentile in milliseconds. -/
def percentileMs (collector : MetricCollector) (p : ℚ) : ℚ :=
  if collector.totalOps = 0 then 0 else collector.percentileNs p / 1000000

/-- The median latency. -/
def p50LatencyMs (collector : MetricCollector) : ℚ := collector.percentileMs (50 / 100)

/-- The 90th percentile latency. -/
def p90LatencyMs (collector : MetricCollector) : ℚ := collector.percentileMs (90 / 100)

/-- The 99th percentile latency. -/
def p99LatencyMs (collector : MetricCollector) : ℚ := collector.percentileMs (99 / 100)

/-- The 99.9th percentile latency. -/
def p999LatencyMs (collector : MetricCollector) : ℚ := collector.percentileMs (999 / 1000)

/-- The aggregate rate in gigabits per second. -/
def throughputGbps (collector : MetricCollector) (durationSec : ℚ) : ℚ :=
  if durationSec ≤ 0 then 0 else (collector.totalBytes * 8 : ℕ) / (durationSec * 1000000000)

/-- Overwriting buckets keeps their number. -/
theorem foldl_set_length (indices buckets : List ℕ) :
    (indices.foldl (fun buckets i => buckets.set i 0) buckets).length = buckets.length := by
  induction indices generalizing buckets with
  | nil => rfl
  | cons i rest ih => rw [List.foldl_cons, ih, List.length_set]

/-- Clear every bucket and total. -/
def reset (collector : MetricCollector) : MetricCollector where
  buckets := (List.range 64).foldl (fun buckets i => buckets.set i 0) collector.buckets
  bucketsLength := by rw [foldl_set_length, collector.bucketsLength]
  totalOps := 0
  totalBytes := 0
  minLatencyNs := 0xFFFFFFFFFFFFFFFF
  maxLatencyNs := 0

/-- The collector after recording a history of latencies. -/
def recordAll (collector : MetricCollector) (latencies : List ℕ) : MetricCollector :=
  latencies.foldl recordLatency collector

end MetricCollector

/-- A positive bit length is the exponent of the least power of two above the number. -/
theorem bitLength_le_iff (n k : ℕ) : bitLength n ≤ k ↔ n < 2 ^ k := by
  unfold bitLength
  by_cases hn : n = 0
  · simp [hn]
  · rw [if_neg hn, Nat.succ_le_iff, Nat.log2_lt hn]

/-- Every latency has a bucket. -/
theorem bucketIndex_lt (latencyNs : ℕ) : bucketIndex latencyNs < 64 := by
  unfold bucketIndex
  split <;> omega

/-- Below the last bucket, a latency's bucket is bounded by its size. -/
theorem bucketIndex_le_iff (latencyNs bound : ℕ) :
    bucketIndex latencyNs ≤ bound ↔ 63 ≤ bound ∨ latencyNs < 2 ^ bound := by
  rw [← bitLength_le_iff]
  unfold bucketIndex
  split <;> omega

namespace MetricCollector

/-- Adding one at an index raises exactly the prefix sums from that index on. -/
theorem prefixTotal_modify (counts : List ℕ) (index bound : ℕ) (h : index < counts.length) :
    prefixTotal (counts.modify index (· + 1)) bound =
      prefixTotal counts bound + if index ≤ bound then 1 else 0 := by
  induction counts generalizing index bound with
  | nil => simp at h
  | cons count rest ih =>
    cases index with
    | zero =>
      simp [prefixTotal]
      omega
    | succ index =>
      cases bound with
      | zero => simp [prefixTotal]
      | succ bound =>
        have hrest := ih index bound (by simpa using h)
        simp only [prefixTotal, List.modify_succ_cons, List.take_succ_cons, List.sum_cons,
          Nat.add_le_add_iff_right] at hrest ⊢
        omega

/-- Recording a history adds its length to the operation count. -/
theorem recordAll_totalOps (collector : MetricCollector) (latencies : List ℕ) :
    (collector.recordAll latencies).totalOps = collector.totalOps + latencies.length := by
  induction latencies generalizing collector with
  | nil => rfl
  | cons latency rest ih =>
    have hrest := ih (collector.recordLatency latency)
    rw [recordAll, List.foldl_cons]
    rw [recordAll] at hrest
    rw [hrest, List.length_cons, recordLatency]
    simp only
    omega

/-- Recording a history adds to each cumulative count the latencies bucketed up to it. -/
theorem recordAll_prefixTotal (collector : MetricCollector) (latencies : List ℕ) (bound : ℕ) :
    prefixTotal (collector.recordAll latencies).buckets bound =
      prefixTotal collector.buckets bound +
        latencies.countP (fun latency => decide (bucketIndex latency ≤ bound)) := by
  induction latencies generalizing collector with
  | nil => rfl
  | cons latency rest ih =>
    have hrest := ih (collector.recordLatency latency)
    have hindex : bucketIndex latency < collector.buckets.length := by
      rw [collector.bucketsLength]
      exact bucketIndex_lt latency
    have hfirst : prefixTotal (collector.recordLatency latency).buckets bound =
        prefixTotal collector.buckets bound + if bucketIndex latency ≤ bound then 1 else 0 :=
      prefixTotal_modify collector.buckets _ bound hindex
    rw [recordAll, List.foldl_cons]
    rw [recordAll] at hrest
    rw [hrest, hfirst, List.countP_cons]
    by_cases h : bucketIndex latency ≤ bound
    · simp [h]
      omega
    · simp [h]

/-- A fresh collector's cumulative counts are those of its history. -/
theorem recordAll_init_prefixTotal (latencies : List ℕ) (bound : ℕ) :
    prefixTotal (init.recordAll latencies).buckets bound =
      latencies.countP (fun latency => decide (bucketIndex latency ≤ bound)) := by
  rw [recordAll_prefixTotal]
  have hzero : prefixTotal init.buckets bound = 0 := by
    change ((List.replicate 64 0).take (bound + 1)).sum = 0
    simp only [List.take_replicate, List.sum_replicate, nsmul_zero]
  rw [hzero, Nat.zero_add]

/-- A fresh collector's buckets add up to its operation count. -/
theorem recordAll_init_sum (latencies : List ℕ) :
    (init.recordAll latencies).buckets.sum = latencies.length := by
  have hall := recordAll_init_prefixTotal latencies 63
  have htake : (init.recordAll latencies).buckets.take 64 = (init.recordAll latencies).buckets :=
    List.take_of_length_le (Nat.le_of_eq (init.recordAll latencies).bucketsLength)
  rw [prefixTotal, htake] at hall
  rw [hall, List.countP_eq_length]
  intro latency _
  have hlt := bucketIndex_lt latency
  simp only [decide_eq_true_eq]
  omega

/-- The representative latency of a bucket is a power of two. -/
theorem upperBoundNs_eq (bucket : ℕ) : upperBoundNs bucket = 2 ^ bucket := by
  unfold upperBoundNs
  split
  · rw [Nat.one_shiftLeft]
  · rename_i h
    have hzero : bucket = 0 := by omega
    rw [hzero, Nat.pow_zero]

/-- A rank never exceeds the operation count. -/
theorem targetCount_le (collector : MetricCollector) (p : ℚ) :
    collector.targetCount p ≤ collector.totalOps := by
  unfold targetCount
  rw [← Nat.floor_natCast (R := ℚ) collector.totalOps]
  apply Nat.floor_le_floor
  exact mul_le_of_le_one_right (Nat.cast_nonneg _) (min_le_right _ _)

/-- A rank never exceeds the length of the history. -/
theorem recordAll_targetCount_le (latencies : List ℕ) (p : ℚ) :
    (init.recordAll latencies).targetCount p ≤ latencies.length := by
  have hle := targetCount_le (init.recordAll latencies) p
  rw [recordAll_totalOps, init, Nat.zero_add] at hle
  exact hle

/-- The scan stops inside the buckets of any history. -/
theorem recordAll_scan (latencies : List ℕ) (p : ℚ) :
    ∃ bucket, cumulativeScan ((init.recordAll latencies).targetCount p)
      (init.recordAll latencies).buckets = some bucket := by
  apply exists_cumulativeScan
  · apply List.ne_nil_of_length_pos
    rw [(init.recordAll latencies).bucketsLength]
    decide
  · rw [recordAll_init_sum]
    exact recordAll_targetCount_le latencies p

/-- The bound behind a percentile is a power of two, and its exponent is at most a bound
exactly when the rank is reached among the buckets up to that bound. -/
theorem percentileNs_spec (latencies : List ℕ) (p : ℚ) :
    ∃ bucket, bucket < 64 ∧ (init.recordAll latencies).percentileNs p = 2 ^ bucket ∧
      ∀ bound, bucket ≤ bound ↔ (init.recordAll latencies).targetCount p ≤
        latencies.countP fun latency => decide (bucketIndex latency ≤ bound) := by
  obtain ⟨bucket, hscan⟩ := recordAll_scan latencies p
  have hiff (bound : ℕ) : bucket ≤ bound ↔ (init.recordAll latencies).targetCount p ≤
      latencies.countP fun latency => decide (bucketIndex latency ≤ bound) := by
    rw [cumulativeScan_le_iff hscan, recordAll_init_prefixTotal]
  refine ⟨bucket, ?_, ?_, hiff⟩
  · apply Nat.lt_succ_of_le
    rw [hiff, ← recordAll_init_prefixTotal, prefixTotal,
      List.take_of_length_le (Nat.le_of_eq (init.recordAll latencies).bucketsLength),
      recordAll_init_sum]
    exact recordAll_targetCount_le latencies p
  · rw [percentileNs, hscan]
    simp only [upperBoundNs_eq]

/-- A nonempty history's percentile is the bound behind it in milliseconds. -/
theorem percentileMs_eq {latencies : List ℕ} (h : latencies ≠ []) (p : ℚ) :
    (init.recordAll latencies).percentileMs p =
      (init.recordAll latencies).percentileNs p / 1000000 := by
  have hsome : (init.recordAll latencies).totalOps ≠ 0 := by
    rw [recordAll_totalOps, init, Nat.zero_add]
    exact fun hlength => h (List.length_eq_zero_iff.mp hlength)
  rw [percentileMs, if_neg hsome]

/-- A percentile of a nonempty history is a power of two of nanoseconds, and its exponent
is at most a bound exactly when the rank is reached among the buckets up to that bound. -/
theorem percentileMs_spec {latencies : List ℕ} (h : latencies ≠ []) (p : ℚ) :
    ∃ bucket, bucket < 64 ∧ (init.recordAll latencies).percentileMs p = 2 ^ bucket / 1000000 ∧
      ∀ bound, bucket ≤ bound ↔ (init.recordAll latencies).targetCount p ≤
        latencies.countP fun latency => decide (bucketIndex latency ≤ bound) := by
  obtain ⟨bucket, hlt, hvalue, hiff⟩ := percentileNs_spec latencies p
  refine ⟨bucket, hlt, ?_, hiff⟩
  rw [percentileMs_eq h, hvalue]
  simp only [Nat.cast_pow, Nat.cast_ofNat]

end MetricCollector

end Steve.Validation
