import Mathlib.Data.List.DropRight
import Mathlib.Data.List.MinMax
import Mathlib.Algebra.BigOperators.Group.List.Basic
import Steve.Validation.MetricCollector

/-!
# What a collector knows about its calls

Five pieces of state describe the same calls. A reset brings back the fresh collector, so
only the calls after the last one count; on these the latencies and the byte counts act on
different fields, and the collector is the one that recorded the latencies first and the
bytes afterwards.
-/

namespace Steve.Validation

open Steve.Library

/-- A call that changes a collector. -/
inductive CollectorCall where
  | recordLatency (latencyNs : ℕ)
  | recordBytes (byteCount : ℕ)
  | reset
  deriving DecidableEq

namespace CollectorCall

/-- The latency a call records. -/
def latencyNs? : CollectorCall → Option ℕ
  | .recordLatency latencyNs => some latencyNs
  | _ => none

/-- The byte count a call records. -/
def byteCount? : CollectorCall → Option ℕ
  | .recordBytes byteCount => some byteCount
  | _ => none

/-- The bucket indices a call writes to. -/
def indices : CollectorCall → List ℕ
  | .recordLatency latencyNs => [bucketIndex latencyNs]
  | .recordBytes _ => []
  | .reset => List.range 64

end CollectorCall

/-- The latencies recorded by a sequence of calls. -/
def recordedLatencies (calls : List CollectorCall) : List ℕ :=
  calls.filterMap CollectorCall.latencyNs?

/-- The byte counts recorded by a sequence of calls. -/
def recordedBytes (calls : List CollectorCall) : List ℕ :=
  calls.filterMap CollectorCall.byteCount?

/-- The calls that follow the last reset. -/
def afterLastReset (calls : List CollectorCall) : List CollectorCall :=
  calls.rtakeWhile fun call => decide (call ≠ .reset)

/-- The collector describes exactly the given latencies and byte counts. -/
structure Describes (collector : MetricCollector) (latencies byteCounts : List ℕ) : Prop where
  buckets : ∀ i < 63, collector.buckets[i]? =
    some (latencies.countP fun latencyNs => decide (bitLength latencyNs = i))
  lastBucket : collector.buckets[63]? =
    some (latencies.countP fun latencyNs => decide (63 ≤ bitLength latencyNs))
  totalOps : collector.totalOps = latencies.length
  bucketSum : collector.buckets.sum = collector.totalOps
  totalBytes : collector.totalBytes = byteCounts.sum
  minLatencyNs : collector.minLatencyNs = latencies.min?.getD 0xFFFFFFFFFFFFFFFF
  maxLatencyNs : collector.maxLatencyNs = latencies.max?.getD 0

namespace MetricCollector

/-- The collector after a call. -/
def apply (collector : MetricCollector) : CollectorCall → MetricCollector
  | .recordLatency latencyNs => collector.recordLatency latencyNs
  | .recordBytes byteCount => collector.recordBytes byteCount
  | .reset => collector.reset

/-- The collector after a sequence of calls. -/
def run (collector : MetricCollector) (calls : List CollectorCall) : MetricCollector :=
  calls.foldl apply collector

/-- The last call of a sequence acts on what the others leave. -/
theorem run_concat (collector : MetricCollector) (calls : List CollectorCall)
    (call : CollectorCall) :
    collector.run (calls ++ [call]) = (collector.run calls).apply call := by
  rw [run, List.foldl_concat]
  rfl

/-- Clearing an initial segment of buckets leaves the others. -/
theorem foldl_set_range (buckets : List ℕ) {count : ℕ} (h : count ≤ buckets.length) :
    (List.range count).foldl (fun buckets i => buckets.set i 0) buckets =
      List.replicate count 0 ++ buckets.drop count := by
  induction count with
  | zero => simp
  | succ count ih =>
    rw [List.range_succ, List.foldl_concat, ih (by omega), List.replicate_succ',
      List.set_append_right _ _ (by simp), List.length_replicate, Nat.sub_self,
      List.drop_eq_getElem_cons (by omega), List.set_cons_zero, List.append_assoc]
    rfl

/-- A reset brings back the fresh collector. -/
theorem reset_eq_init (collector : MetricCollector) : collector.reset = init := by
  have hbuckets : (List.range 64).foldl (fun buckets i => buckets.set i 0) collector.buckets =
      List.replicate 64 0 := by
    rw [foldl_set_range _ (Nat.le_of_eq collector.bucketsLength.symm),
      List.drop_of_length_le (Nat.le_of_eq collector.bucketsLength), List.append_nil]
  simp only [reset, init, hbuckets]

/-- Recording one more latency acts on what the others leave. -/
theorem recordAll_concat (collector : MetricCollector) (latencies : List ℕ) (latencyNs : ℕ) :
    collector.recordAll (latencies ++ [latencyNs]) =
      (collector.recordAll latencies).recordLatency latencyNs := by
  rw [recordAll, List.foldl_concat]
  rfl

/-- A fresh collector's calls come down to the latencies and the byte counts recorded since
the last reset. -/
theorem run_init_eq (calls : List CollectorCall) :
    init.run calls = (init.recordAll (recordedLatencies (afterLastReset calls))).recordBytes
      (recordedBytes (afterLastReset calls)).sum := by
  induction calls using List.reverseRecOn with
  | nil => rfl
  | append_singleton calls call ih =>
    rw [run_concat, ih]
    cases call with
    | recordLatency latencyNs =>
      have hkept : afterLastReset (calls ++ [.recordLatency latencyNs]) =
          afterLastReset calls ++ [.recordLatency latencyNs] :=
        List.rtakeWhile_concat_pos _ _ _ (by simp)
      have hlatencies : recordedLatencies (afterLastReset calls ++ [.recordLatency latencyNs]) =
          recordedLatencies (afterLastReset calls) ++ [latencyNs] := List.filterMap_append
      have hbytes : recordedBytes (afterLastReset calls ++ [.recordLatency latencyNs]) =
          recordedBytes (afterLastReset calls) := by
        simp [recordedBytes, CollectorCall.byteCount?]
      rw [hkept, hlatencies, hbytes, recordAll_concat]
      rfl
    | recordBytes byteCount =>
      have hkept : afterLastReset (calls ++ [.recordBytes byteCount]) =
          afterLastReset calls ++ [.recordBytes byteCount] :=
        List.rtakeWhile_concat_pos _ _ _ (by simp)
      have hlatencies : recordedLatencies (afterLastReset calls ++ [.recordBytes byteCount]) =
          recordedLatencies (afterLastReset calls) := by
        simp [recordedLatencies, CollectorCall.latencyNs?]
      have hbytes : recordedBytes (afterLastReset calls ++ [.recordBytes byteCount]) =
          recordedBytes (afterLastReset calls) ++ [byteCount] := List.filterMap_append
      rw [hkept, hlatencies, hbytes, List.sum_append, List.sum_singleton]
      simp only [apply, recordBytes, Nat.add_assoc]
    | reset =>
      have hkept : afterLastReset (calls ++ [.reset]) = [] :=
        List.rtakeWhile_concat_neg _ _ _ (by simp)
      rw [hkept]
      exact reset_eq_init _

/-- Recording latencies leaves the byte count. -/
theorem recordAll_totalBytes (collector : MetricCollector) (latencies : List ℕ) :
    (collector.recordAll latencies).totalBytes = collector.totalBytes := by
  induction latencies using List.reverseRecOn with
  | nil => rfl
  | append_singleton latencies latencyNs ih =>
    rw [recordAll_concat, recordLatency]
    exact ih

/-- A bucket grows by the latencies that fall into it. -/
theorem recordAll_getElem? (collector : MetricCollector) (latencies : List ℕ) (i : ℕ) :
    (collector.recordAll latencies).buckets[i]? = collector.buckets[i]?.map
      (· + latencies.countP fun latencyNs => decide (bucketIndex latencyNs = i)) := by
  induction latencies using List.reverseRecOn with
  | nil => simp [recordAll]
  | append_singleton latencies latencyNs ih =>
    rw [recordAll_concat, recordLatency, List.getElem?_modify, ih, List.countP_append]
    by_cases h : bucketIndex latencyNs = i
    · simp [h, Function.comp_def, Nat.add_assoc]
    · simp [h]

/-- A fresh collector's bucket counts the latencies that fall into it. -/
theorem recordAll_init_getElem? (latencies : List ℕ) {i : ℕ} (hi : i < 64) :
    (init.recordAll latencies).buckets[i]? =
      some (latencies.countP fun latencyNs => decide (bucketIndex latencyNs = i)) := by
  rw [recordAll_getElem?, init, List.getElem?_replicate_of_lt hi, Option.map_some, Nat.zero_add]

/-- The least latency so far is the running minimum. -/
theorem recordAll_minLatencyNs (collector : MetricCollector) (latencies : List ℕ) :
    (collector.recordAll latencies).minLatencyNs = latencies.foldl min collector.minLatencyNs := by
  induction latencies using List.reverseRecOn with
  | nil => rfl
  | append_singleton latencies latencyNs ih =>
    rw [recordAll_concat, List.foldl_concat, ← ih, recordLatency]
    simp only
    split <;> omega

/-- The greatest latency so far is the running maximum. -/
theorem recordAll_maxLatencyNs (collector : MetricCollector) (latencies : List ℕ) :
    (collector.recordAll latencies).maxLatencyNs = latencies.foldl max collector.maxLatencyNs := by
  induction latencies using List.reverseRecOn with
  | nil => rfl
  | append_singleton latencies latencyNs ih =>
    rw [recordAll_concat, List.foldl_concat, ← ih, recordLatency]
    simp only
    split <;> omega

/-- The sentinel gives way to the least latency. -/
theorem recordAll_init_minLatencyNs {latencies : List ℕ}
    (h : ∀ latencyNs ∈ latencies, latencyNs < 2 ^ 64) :
    (init.recordAll latencies).minLatencyNs = latencies.min?.getD 0xFFFFFFFFFFFFFFFF := by
  rw [recordAll_minLatencyNs]
  cases latencies with
  | nil => rfl
  | cons latencyNs rest =>
    have hlt := h latencyNs List.mem_cons_self
    have hfirst : min 0xFFFFFFFFFFFFFFFF latencyNs = latencyNs := by omega
    rw [List.min?_cons', Option.getD_some, List.foldl_cons, init]
    simp only [hfirst]

/-- Zero gives way to the greatest latency. -/
theorem recordAll_init_maxLatencyNs (latencies : List ℕ) :
    (init.recordAll latencies).maxLatencyNs = latencies.max?.getD 0 := by
  rw [recordAll_maxLatencyNs]
  cases latencies with
  | nil => rfl
  | cons latencyNs rest =>
    rw [List.max?_cons', Option.getD_some, List.foldl_cons, init]
    simp only [Nat.zero_max]

/-- A fresh collector that recorded a history describes it. -/
theorem recordAll_describes {latencies : List ℕ}
    (h : ∀ latencyNs ∈ latencies, latencyNs < 2 ^ 64) :
    Describes (init.recordAll latencies) latencies [] where
  buckets := by
    intro i hi
    rw [recordAll_init_getElem? latencies (by omega)]
    congr 1
    apply List.countP_congr
    intro latencyNs _
    rw [decide_eq_true_eq, decide_eq_true_eq, bucketIndex]
    split <;> omega
  lastBucket := by
    rw [recordAll_init_getElem? latencies (by decide)]
    congr 1
    apply List.countP_congr
    intro latencyNs _
    rw [decide_eq_true_eq, decide_eq_true_eq, bucketIndex]
    split <;> omega
  totalOps := by rw [recordAll_totalOps, init, Nat.zero_add]
  bucketSum := by rw [recordAll_init_sum, recordAll_totalOps, init, Nat.zero_add]
  totalBytes := recordAll_totalBytes init latencies
  minLatencyNs := recordAll_init_minLatencyNs h
  maxLatencyNs := recordAll_init_maxLatencyNs latencies

/-- The calls after the last reset are among the calls. -/
theorem mem_of_mem_recordedLatencies {calls : List CollectorCall} {latencyNs : ℕ}
    (h : latencyNs ∈ recordedLatencies (afterLastReset calls)) :
    .recordLatency latencyNs ∈ calls := by
  obtain ⟨call, hmem, hcall⟩ := List.mem_filterMap.mp h
  cases call with
  | recordLatency recorded =>
    cases hcall
    exact (List.rtakeWhile_suffix _ _).subset hmem
  | recordBytes byteCount => cases hcall
  | reset => cases hcall

/-- Every call stays within the bucket list. -/
theorem indices_lt (collector : MetricCollector) (call : CollectorCall) :
    ∀ i ∈ call.indices, i < collector.buckets.length := by
  rw [collector.bucketsLength]
  intro i hi
  cases call with
  | recordLatency latencyNs =>
    rw [CollectorCall.indices, List.mem_singleton] at hi
    rw [hi]
    exact bucketIndex_lt latencyNs
  | recordBytes byteCount => cases hi
  | reset => exact List.mem_range.mp hi

/-- After any calls a collector describes exactly those since the last reset, and no call
leaves the bucket list on the way. -/
theorem run_describes (calls : List CollectorCall)
    (h : ∀ latencyNs, .recordLatency latencyNs ∈ calls → latencyNs < 2 ^ 64) :
    init.run calls = init.run (afterLastReset calls) ∧
      Describes (init.run calls) (recordedLatencies (afterLastReset calls))
        (recordedBytes (afterLastReset calls)) ∧
      ∀ earlier call later, calls = earlier ++ call :: later →
        ∀ i ∈ call.indices, i < (init.run earlier).buckets.length := by
  have hkept : afterLastReset (afterLastReset calls) = afterLastReset calls :=
    List.rtakeWhile_idempotent _ _
  have hdescribes := recordAll_describes
    fun latencyNs hmem => h latencyNs (mem_of_mem_recordedLatencies hmem)
  refine ⟨?_, ?_, ?_⟩
  · rw [run_init_eq calls, run_init_eq (afterLastReset calls), hkept]
  · rw [run_init_eq calls]
    have hbytes : ((init.recordAll (recordedLatencies (afterLastReset calls))).recordBytes
        (recordedBytes (afterLastReset calls)).sum).totalBytes =
          (recordedBytes (afterLastReset calls)).sum := by
      rw [recordBytes, hdescribes.totalBytes, List.sum_nil, Nat.zero_add]
    exact { hdescribes with totalBytes := hbytes }
  · intro earlier call later _
    exact indices_lt _ call

/-- Two latencies around a reset, with a byte count after them. -/
theorem run_describes_around_reset :
    init.run [.recordLatency 5, .reset, .recordLatency 0, .recordBytes 4096] =
        init.run [.recordLatency 0, .recordBytes 4096] ∧
      Describes (init.run [.recordLatency 5, .reset, .recordLatency 0, .recordBytes 4096])
        [0] [4096] :=
  have h := run_describes [.recordLatency 5, .reset, .recordLatency 0, .recordBytes 4096]
    (by intro latencyNs hmem; simp at hmem; omega)
  ⟨h.1, h.2.1⟩

end MetricCollector

end Steve.Validation
