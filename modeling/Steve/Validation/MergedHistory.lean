import Mathlib.Tactic.Linarith
import Steve.Validation.MetricCollector

/-!
# Percentiles of two histories together

The rank that a fraction asks for in two histories together is the sum of the ranks in both,
or one more. So a percentile of both together is never below both of their own. It is never
above both either, unless rounding down has lost a whole rank.
-/

namespace Steve.Validation

open Steve.Library

namespace MetricCollector

/-- The rank a fraction asks for in a history. -/
theorem recordAll_targetCount_eq (latencies : List ℕ) (p : ℚ) :
    (init.recordAll latencies).targetCount p = ⌊(latencies.length : ℚ) * min (max p 0) 1⌋₊ := by
  rw [targetCount, recordAll_totalOps, init, Nat.zero_add]

/-- The rank in two histories together is at least the sum of the ranks in both. -/
theorem targetCount_add_le (first second : List ℕ) (p : ℚ) :
    (init.recordAll first).targetCount p + (init.recordAll second).targetCount p ≤
      (init.recordAll (first ++ second)).targetCount p := by
  have hfraction : 0 ≤ min (max p 0) 1 := le_min (le_max_right _ _) zero_le_one
  have hrank (latencies : List ℕ) : ((init.recordAll latencies).targetCount p : ℚ) ≤
      latencies.length * min (max p 0) 1 := by
    rw [recordAll_targetCount_eq]
    exact Nat.floor_le (mul_nonneg (Nat.cast_nonneg _) hfraction)
  rw [recordAll_targetCount_eq (first ++ second)]
  apply Nat.le_floor
  rw [List.length_append, Nat.cast_add, Nat.cast_add, add_mul]
  exact add_le_add (hrank first) (hrank second)

/-- A percentile of two histories together is at least the smaller of their own, and at most
the larger one where no rank is lost to rounding. -/
theorem percentileNs_append (first second : List ℕ) (p : ℚ) :
    min ((init.recordAll first).percentileNs p) ((init.recordAll second).percentileNs p) ≤
        (init.recordAll (first ++ second)).percentileNs p ∧
      ((init.recordAll (first ++ second)).targetCount p ≤
          (init.recordAll first).targetCount p + (init.recordAll second).targetCount p →
        (init.recordAll (first ++ second)).percentileNs p ≤
          max ((init.recordAll first).percentileNs p) ((init.recordAll second).percentileNs p)) := by
  obtain ⟨earlier, -, hearlier, hfirst⟩ := percentileNs_spec first p
  obtain ⟨later, -, hlater, hsecond⟩ := percentileNs_spec second p
  obtain ⟨merged, -, hmerged, hboth⟩ := percentileNs_spec (first ++ second) p
  have hranks := targetCount_add_le first second p
  rw [hearlier, hlater, hmerged]
  simp only [List.countP_append] at hboth
  constructor
  · -- below both exponents, neither history has reached its rank
    have hlower : min earlier later ≤ merged := by
      by_contra hbelow
      rw [not_le, lt_min_iff] at hbelow
      have hreached := (hboth merged).mp (le_refl merged)
      have hshort := mt (hfirst merged).mpr (Nat.not_le.mpr hbelow.1)
      have hshort' := mt (hsecond merged).mpr (Nat.not_le.mpr hbelow.2)
      omega
    rcases min_choice earlier later with hmin | hmin
    · exact (min_le_left _ _).trans (Nat.pow_le_pow_right two_pos (hmin ▸ hlower))
    · exact (min_le_right _ _).trans (Nat.pow_le_pow_right two_pos (hmin ▸ hlower))
  · intro hsum
    have hupper : merged ≤ max earlier later := by
      have hreached := (hfirst (max earlier later)).mp (le_max_left _ _)
      have hreached' := (hsecond (max earlier later)).mp (le_max_right _ _)
      rw [hboth]
      omega
    rcases max_choice earlier later with hmax | hmax
    · exact (Nat.pow_le_pow_right two_pos (hmax ▸ hupper)).trans (le_max_left _ _)
    · exact (Nat.pow_le_pow_right two_pos (hmax ▸ hupper)).trans (le_max_right _ _)

/-- The same in milliseconds, where a history may be empty. -/
theorem percentileMs_append (first second : List ℕ) (p : ℚ) :
    min ((init.recordAll first).percentileMs p) ((init.recordAll second).percentileMs p) ≤
        (init.recordAll (first ++ second)).percentileMs p ∧
      ((init.recordAll (first ++ second)).targetCount p ≤
          (init.recordAll first).targetCount p + (init.recordAll second).targetCount p →
        (init.recordAll (first ++ second)).percentileMs p ≤
          max ((init.recordAll first).percentileMs p) ((init.recordAll second).percentileMs p)) := by
  by_cases hfirst : first = []
  · subst hfirst
    exact ⟨min_le_right _ _, fun _ => le_max_right _ _⟩
  by_cases hsecond : second = []
  · subst hsecond
    rw [List.append_nil]
    exact ⟨min_le_left _ _, fun _ => le_max_left _ _⟩
  have hmillion : (0 : ℚ) ≤ 1000000 := by norm_num
  obtain ⟨hlower, hupper⟩ := percentileNs_append first second p
  rw [percentileMs_eq hfirst, percentileMs_eq hsecond,
    percentileMs_eq (List.append_ne_nil_of_left_ne_nil hfirst second),
    min_div_div_right hmillion, max_div_div_right hmillion]
  constructor
  · exact div_le_div_of_nonneg_right (by exact_mod_cast hlower) hmillion
  · intro hsum
    exact div_le_div_of_nonneg_right (by exact_mod_cast hupper hsum) hmillion

/-- A rank lost to rounding puts the median of two histories above both of their own. -/
example : (init.recordAll [1]).percentileNs (1 / 2) = 1 ∧
    (init.recordAll [1, 1]).percentileNs (1 / 2) = 2 := by decide +kernel

end MetricCollector

end Steve.Validation
