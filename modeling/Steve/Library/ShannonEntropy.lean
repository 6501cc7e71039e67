import Mathlib.Analysis.Convex.Jensen
import Mathlib.Analysis.SpecialFunctions.Log.Base
import Mathlib.Analysis.SpecialFunctions.Log.NegMulLog
import Steve.Library.Dict

/-!
# Empirical Shannon entropy

The entropy of a string is that of its values' frequencies, in bits for each position. It does
not change when the string is repeated. It is at most the logarithm of the number of positions,
so a repeated pattern has at most the bits of one period, and exactly these where no value
occurs twice in it.
-/

namespace Steve.Library

variable {A : Type*} [DecidableEq A]

/-- `Counter(data)`: the number of occurrences of each value, in order of first occurrence. -/
def tally (data : List A) : Dict A ℕ :=
  data.foldl (fun counts value => counts.set value ((counts.get? value).getD 0 + 1)) Dict.empty

/-- What a value of some frequency adds to the entropy. -/
noncomputable def entropyTerm (frequency : ℝ) : ℝ := -(frequency * Real.logb (2 : ℕ) frequency)

/-- The entropy of a string, in bits for each position. -/
noncomputable def shannonEntropy (data : List A) : ℝ :=
  ((tally data).values.map fun (count : ℕ) => entropyTerm (count / data.length)).sum

/-- One more value is counted last. -/
theorem tally_concat (data : List A) (value : A) :
    tally (data ++ [value]) =
      (tally data).set value (((tally data).get? value).getD 0 + 1) := by
  rw [tally, List.foldl_append]
  rfl

/-- Every value is counted as often as it occurs. -/
theorem tally_getD (data : List A) (value : A) :
    ((tally data).get? value).getD 0 = data.count value := by
  induction data using List.reverseRecOn with
  | nil => rfl
  | append_singleton data last ih =>
    rw [tally_concat, Dict.get?_set, List.count_append, List.count_singleton]
    by_cases h : last = value
    · subst h
      rw [if_pos rfl, if_pos (beq_self_eq_true last), Option.getD_some, ih]
    · rw [if_neg h, if_neg (by simpa using h), ih, Nat.add_zero]

/-- The values that occur are counted. -/
theorem mem_tally_keys (data : List A) (value : A) :
    value ∈ (tally data).keys ↔ value ∈ data := by
  induction data using List.reverseRecOn with
  | nil => rfl
  | append_singleton data last ih =>
    rw [tally_concat, Dict.mem_keys_set, ih, List.mem_append, List.mem_singleton, or_comm]

/-- The entropy is a sum over the values that occur. -/
theorem shannonEntropy_eq_sum (data : List A) :
    shannonEntropy data =
      ∑ value ∈ data.toFinset, entropyTerm (data.count value / data.length) := by
  have hkeys : (tally data).keys.toFinset = data.toFinset := by
    ext value
    rw [List.mem_toFinset, List.mem_toFinset, mem_tally_keys]
  have hvalues : (tally data).values = (tally data).keys.map fun value => data.count value := by
    rw [← Dict.map_getD_keys (tally data) 0]
    apply List.map_congr_left
    intro value _
    exact tally_getD data value
  rw [shannonEntropy, hvalues, List.map_map, ← hkeys,
    List.sum_toFinset _ (tally data).keys_nodup]
  rfl

/-- Repeating a string keeps its entropy. -/
theorem shannonEntropy_repeat {count : ℕ} (hcount : 0 < count) (data : List A) :
    shannonEntropy (List.replicate count data).flatten = shannonEntropy data := by
  have hvalues : (List.replicate count data).flatten.toFinset = data.toFinset := by
    ext value
    rw [List.mem_toFinset, List.mem_toFinset, List.mem_flatten]
    constructor
    · rintro ⟨period, hperiod, hvalue⟩
      rw [List.eq_of_mem_replicate hperiod] at hvalue
      exact hvalue
    · intro hvalue
      exact ⟨data, List.mem_replicate.mpr ⟨Nat.ne_of_gt hcount, rfl⟩, hvalue⟩
  rw [shannonEntropy_eq_sum, shannonEntropy_eq_sum, hvalues]
  apply Finset.sum_congr rfl
  intro value _
  have hpositive : (count : ℝ) ≠ 0 := Nat.cast_ne_zero.mpr (Nat.ne_of_gt hcount)
  rw [List.count_flatten, List.map_replicate, List.sum_replicate, List.length_flatten,
    List.map_replicate, List.sum_replicate, smul_eq_mul, smul_eq_mul, Nat.cast_mul, Nat.cast_mul,
    mul_div_mul_left _ _ hpositive]

/-- The frequencies of a nonempty string add up to one. -/
theorem sum_frequencies {data : List A} (h : data ≠ []) :
    ∑ value ∈ data.toFinset, (data.count value : ℝ) / data.length = 1 := by
  have hlength : (data.length : ℝ) ≠ 0 :=
    Nat.cast_ne_zero.mpr fun hzero => h (List.length_eq_zero_iff.mp hzero)
  rw [← Finset.sum_div, ← Nat.cast_sum, List.sum_toFinset_count_eq_length, div_self hlength]

/-- A value's term is concave in its frequency. -/
theorem entropyTerm_eq (frequency : ℝ) :
    entropyTerm frequency = Real.negMulLog frequency / Real.log 2 := by
  rw [entropyTerm, Nat.cast_ofNat, Real.negMulLog, Real.logb]
  ring

/-- Of so many equally frequent values each adds its share of the logarithm. -/
theorem entropyTerm_inv (count : ℝ) : entropyTerm count⁻¹ = count⁻¹ * Real.logb 2 count := by
  rw [entropyTerm, Nat.cast_ofNat, Real.logb_inv]
  ring

/-- Some value occurs in a nonempty string. -/
theorem card_toFinset_pos {data : List A} (h : data ≠ []) : (0 : ℝ) < data.toFinset.card :=
  Nat.cast_pos.mpr (Finset.card_pos.mpr ((List.toFinset_nonempty_iff data).mpr h))

/-- The entropy is at most the logarithm of the number of values that occur. -/
theorem shannonEntropy_le_logb_card {data : List A} (h : data ≠ []) :
    shannonEntropy data ≤ Real.logb 2 data.toFinset.card := by
  have hcard := card_toFinset_pos h
  have hlog : 0 < Real.log 2 := Real.log_pos one_lt_two
  have hweights : ∑ _value ∈ data.toFinset, (data.toFinset.card : ℝ)⁻¹ = 1 := by
    rw [Finset.sum_const, nsmul_eq_mul, mul_inv_cancel₀ (ne_of_gt hcard)]
  -- the terms' mean is at most the term of the mean frequency
  have hjensen : ∑ value ∈ data.toFinset,
        (data.toFinset.card : ℝ)⁻¹ • Real.negMulLog (data.count value / data.length) ≤
      Real.negMulLog (∑ value ∈ data.toFinset,
        (data.toFinset.card : ℝ)⁻¹ • (data.count value / data.length : ℝ)) :=
    Real.concaveOn_negMulLog.le_map_sum (fun _ _ => inv_nonneg.mpr hcard.le) hweights
      fun _ _ => Set.mem_Ici.mpr (div_nonneg (Nat.cast_nonneg _) (Nat.cast_nonneg _))
  simp only [smul_eq_mul, ← Finset.mul_sum] at hjensen
  rw [sum_frequencies h, mul_one] at hjensen
  have hmean : Real.negMulLog (data.toFinset.card : ℝ)⁻¹ =
      (data.toFinset.card : ℝ)⁻¹ * Real.log data.toFinset.card := by
    rw [Real.negMulLog, Real.log_inv]
    ring
  rw [hmean, mul_le_mul_iff_right₀ (inv_pos.mpr hcard)] at hjensen
  simp only [shannonEntropy_eq_sum, entropyTerm_eq, ← Finset.sum_div]
  exact div_le_div_of_nonneg_right hjensen hlog.le

/-- The entropy is at most the logarithm of the length. -/
theorem shannonEntropy_le_logb_length {data : List A} (h : data ≠ []) :
    shannonEntropy data ≤ Real.logb 2 data.length := by
  apply (shannonEntropy_le_logb_card h).trans
  apply Real.logb_le_logb_of_le one_lt_two
  · exact card_toFinset_pos h
  · exact Nat.cast_le.mpr (List.toFinset_card_le data)

/-- Where no value occurs twice it is the logarithm of the length. -/
theorem shannonEntropy_of_nodup {data : List A} (hne : data ≠ []) (h : data.Nodup) :
    shannonEntropy data = Real.logb 2 data.length := by
  have hlength : (data.length : ℝ) ≠ 0 :=
    Nat.cast_ne_zero.mpr fun hzero => hne (List.length_eq_zero_iff.mp hzero)
  have hterms : ∀ value ∈ data.toFinset, entropyTerm (data.count value / data.length) =
      (data.length : ℝ)⁻¹ * Real.logb 2 data.length := by
    intro value hvalue
    rw [List.count_eq_one_of_mem h (List.mem_toFinset.mp hvalue), Nat.cast_one, one_div,
      entropyTerm_inv]
  rw [shannonEntropy_eq_sum, Finset.sum_congr rfl hterms, Finset.sum_const,
    List.toFinset_card_of_nodup h, nsmul_eq_mul, mul_inv_cancel_left₀ hlength]

/-- A string of one value has none. -/
theorem shannonEntropy_replicate (count : ℕ) (value : A) :
    shannonEntropy (List.replicate count value) = 0 := by
  cases count with
  | zero => rfl
  | succ count =>
    have hrepeat : List.replicate (count + 1) value =
        (List.replicate (count + 1) [value]).flatten := by
      simp
    rw [hrepeat, shannonEntropy_repeat (Nat.succ_pos count),
      shannonEntropy_of_nodup (List.cons_ne_nil _ _) (List.nodup_singleton value),
      List.length_singleton, Nat.cast_one, Real.logb_one]

end Steve.Library
