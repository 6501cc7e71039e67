import Mathlib.Data.List.Forall2
import Steve.Validation.CollectorHistory
import Steve.Validation.PercentileRank

/-!
# Percentiles follow the order of the latencies

A percentile depends on a history only through how many latencies lie up to each bound. A
history with fewer latencies up to every bound has no smaller percentile, which covers
rearranged histories, slower operations and higher fractions at once.
-/

namespace Steve.Validation

open Steve.Library

/-- A history with fewer latencies up to every bound has fewer of them up to every bucket. -/
theorem countP_bucketIndex_anti {first second : List ℕ} (hlength : first.length = second.length)
    (hcount : ∀ bound, countUpTo second bound ≤ countUpTo first bound) (exponent : ℕ) :
    second.countP (fun latencyNs => decide (bucketIndex latencyNs ≤ exponent)) ≤
      first.countP fun latencyNs => decide (bucketIndex latencyNs ≤ exponent) := by
  rcases Nat.lt_or_ge exponent 63 with hlow | htop
  · have hbelow (latencies : List ℕ) :
        latencies.countP (fun latencyNs => decide (bucketIndex latencyNs ≤ exponent)) =
          countUpTo latencies (2 ^ exponent - 1) := by
      apply List.countP_congr
      intro latencyNs _
      have hpos := Nat.two_pow_pos exponent
      rw [decide_eq_true_eq, decide_eq_true_eq, bucketIndex_le_iff]
      omega
    rw [hbelow, hbelow]
    exact hcount _
  · -- every latency is bucketed up to the last bucket
    have hall : first.countP (fun latencyNs => decide (bucketIndex latencyNs ≤ exponent)) =
        first.length := by
      rw [List.countP_eq_length]
      intro latencyNs _
      rw [decide_eq_true_eq, bucketIndex_le_iff]
      exact Or.inl htop
    rw [hall, hlength]
    exact List.countP_le_length

namespace MetricCollector

/-- The rank of a fraction grows with the fraction. -/
theorem targetCount_mono (collector : MetricCollector) {p q : ℚ} (h : p ≤ q) :
    collector.targetCount p ≤ collector.targetCount q := by
  apply Nat.floor_le_floor
  apply mul_le_mul_of_nonneg_left _ (Nat.cast_nonneg _)
  exact min_le_min_right _ (max_le_max_right _ h)

/-- Fewer latencies up to every bound and a higher fraction make no percentile smaller. -/
theorem percentileMs_le {first second : List ℕ} (hlength : first.length = second.length)
    (hcount : ∀ bound, countUpTo second bound ≤ countUpTo first bound) {p q : ℚ} (h : p ≤ q) :
    (init.recordAll first).percentileMs p ≤ (init.recordAll second).percentileMs q := by
  by_cases hfirst : first = []
  · have hsecond : second = [] := by
      rw [← List.length_eq_zero_iff, ← hlength, hfirst, List.length_nil]
    rw [hfirst, hsecond]
    exact le_refl _
  · have hsecond : second ≠ [] := by
      intro hnil
      rw [hnil, List.length_nil, List.length_eq_zero_iff] at hlength
      exact hfirst hlength
    obtain ⟨low, -, hlow, hlowiff⟩ := percentileMs_spec hfirst p
    obtain ⟨high, -, hhigh, hhighiff⟩ := percentileMs_spec hsecond q
    have htarget : (init.recordAll first).targetCount p ≤ (init.recordAll second).targetCount q := by
      have hops : (init.recordAll first).totalOps = (init.recordAll second).totalOps := by
        rw [recordAll_totalOps, recordAll_totalOps, hlength]
      have hsame : (init.recordAll first).targetCount q = (init.recordAll second).targetCount q := by
        rw [targetCount, targetCount, hops]
      rw [← hsame]
      exact targetCount_mono _ h
    have hle : low ≤ high := by
      rw [hlowiff]
      calc (init.recordAll first).targetCount p
          ≤ (init.recordAll second).targetCount q := htarget
        _ ≤ second.countP fun latencyNs => decide (bucketIndex latencyNs ≤ high) :=
            (hhighiff high).mp (Nat.le_refl _)
        _ ≤ first.countP fun latencyNs => decide (bucketIndex latencyNs ≤ high) :=
            countP_bucketIndex_anti hlength hcount high
    rw [hlow, hhigh]
    apply div_le_div_of_nonneg_right _ (by norm_num)
    exact pow_le_pow_right₀ (by norm_num) hle

/-- A rearranged history has the same percentiles. -/
theorem percentileMs_perm {first second : List ℕ} (h : first.Perm second) (p : ℚ) :
    (init.recordAll first).percentileMs p = (init.recordAll second).percentileMs p := by
  apply le_antisymm
  · apply percentileMs_le h.length_eq _ (le_refl p)
    intro bound
    exact le_of_eq (countUpTo_perm h.symm bound)
  · apply percentileMs_le h.length_eq.symm _ (le_refl p)
    intro bound
    exact le_of_eq (countUpTo_perm h bound)

/-- A slower operation makes no percentile smaller. -/
theorem percentileMs_slower (earlier later : List ℕ) {latencyNs slowerNs : ℕ}
    (h : latencyNs ≤ slowerNs) (p : ℚ) :
    (init.recordAll (earlier ++ latencyNs :: later)).percentileMs p ≤
      (init.recordAll (earlier ++ slowerNs :: later)).percentileMs p := by
  have hpointwise : List.Forall₂ (· ≤ ·) (earlier ++ latencyNs :: later)
      (earlier ++ slowerNs :: later) :=
    List.rel_append (List.forall₂_refl earlier) (List.Forall₂.cons h (List.forall₂_refl later))
  exact percentileMs_le (List.Forall₂.length_eq hpointwise) (countUpTo_anti hpointwise) (le_refl p)

/-- Every collector's scan stops inside its buckets. -/
theorem run_scan (calls : List CollectorCall) (p : ℚ) :
    ∃ bucket, cumulativeScan ((init.run calls).targetCount p) (init.run calls).buckets =
      some bucket := by
  rw [run_init_eq]
  exact recordAll_scan _ p

/-- Percentiles are monotone in the sorted latencies and in the fraction; so neither the
order of the operations nor a slower operation lowers one, the reported percentiles ascend,
and none of them is the maximum that stands after the scan. -/
theorem percentileMs_monotone :
    (∀ first second : List ℕ, RankwiseLe first second → ∀ p q : ℚ, p ≤ q →
      (init.recordAll first).percentileMs p ≤ (init.recordAll second).percentileMs q) ∧
    (∀ first second : List ℕ, first.Perm second → ∀ p : ℚ,
      (init.recordAll first).percentileMs p = (init.recordAll second).percentileMs p) ∧
    (∀ latencies : List ℕ,
      (init.recordAll latencies).p50LatencyMs ≤ (init.recordAll latencies).p90LatencyMs ∧
      (init.recordAll latencies).p90LatencyMs ≤ (init.recordAll latencies).p99LatencyMs ∧
      (init.recordAll latencies).p99LatencyMs ≤ (init.recordAll latencies).p999LatencyMs) ∧
    (∀ (earlier later : List ℕ) (latencyNs slowerNs : ℕ), latencyNs ≤ slowerNs → ∀ p : ℚ,
      (init.recordAll (earlier ++ latencyNs :: later)).percentileMs p ≤
        (init.recordAll (earlier ++ slowerNs :: later)).percentileMs p) ∧
    (∀ (calls : List CollectorCall) (p : ℚ), (init.run calls).totalOps ≠ 0 →
      ∃ bucket, cumulativeScan ((init.run calls).targetCount p) (init.run calls).buckets =
          some bucket ∧
        (init.run calls).percentileMs p = upperBoundNs bucket / 1000000) := by
  refine ⟨?_, ?_, ?_, ?_, ?_⟩
  · intro first second h p q hfractions
    exact percentileMs_le h.length_eq h.countUpTo_le hfractions
  · intro first second h p
    exact percentileMs_perm h p
  · intro latencies
    have hascend {p q : ℚ} (h : p ≤ q) : (init.recordAll latencies).percentileMs p ≤
        (init.recordAll latencies).percentileMs q := percentileMs_le rfl (fun _ => le_refl _) h
    exact ⟨hascend (by norm_num), hascend (by norm_num), hascend (by norm_num)⟩
  · intro earlier later latencyNs slowerNs h p
    exact percentileMs_slower earlier later h p
  · intro calls p hops
    obtain ⟨bucket, hscan⟩ := run_scan calls p
    refine ⟨bucket, hscan, ?_⟩
    rw [percentileMs, if_neg hops, percentileNs, hscan]

/-- Two rearranged operations at the median, one of them slower. -/
theorem percentileMs_monotone_two_operations :
    (init.recordAll [900, 3]).percentileMs (1 / 2) ≤ (init.recordAll [5, 900]).percentileMs (1 / 2) :=
  percentileMs_monotone.1 [900, 3] [5, 900]
    (by
      simp only [RankwiseLe, ascending]
      exact List.Forall₂.cons (by decide) (List.Forall₂.cons (by decide) List.Forall₂.nil))
    (1 / 2) (1 / 2) (le_refl _)

end MetricCollector

end Steve.Validation
