import Mathlib.Algebra.BigOperators.Group.List.Basic
import Mathlib.Algebra.Order.BigOperators.Group.List
import Mathlib.Algebra.Order.Ring.Nat

/-!
# Scanning cumulative counts

A histogram scan adds up counts from the left and stops at the first index where the
running total reaches a target. The stopping index is the least one whose prefix sum
reaches the target, so comparing it with a bound is comparing one prefix sum.
-/

namespace Steve.Library

/-- The counts up to and including an index, added up. -/
def prefixTotal (counts : List ℕ) (index : ℕ) : ℕ := (counts.take (index + 1)).sum

/-- Scan with the running total `accumulated`, numbering the counts from `index` on. -/
def scanFrom (target : ℕ) : ℕ → ℕ → List ℕ → Option ℕ
  | _, _, [] => none
  | index, accumulated, count :: rest =>
    if target ≤ accumulated + count then some index
    else scanFrom target (index + 1) (accumulated + count) rest

/-- The first index at which the running total reaches the target. -/
def cumulativeScan (target : ℕ) (counts : List ℕ) : Option ℕ := scanFrom target 0 0 counts

/-- A scan that fails never reached its target. -/
theorem scanFrom_eq_none {target index accumulated : ℕ} {counts : List ℕ}
    (h : scanFrom target index accumulated counts = none) :
    counts = [] ∨ accumulated + counts.sum < target := by
  induction counts generalizing index accumulated with
  | nil => exact Or.inl rfl
  | cons count rest ih =>
    rw [scanFrom] at h
    split at h
    · cases h
    · rename_i hlow
      right
      rw [List.sum_cons]
      cases ih h with
      | inl hrest =>
        subst hrest
        simp only [List.sum_nil]
        omega
      | inr hrest => omega

/-- A scan stops no earlier than it starts. -/
theorem le_of_scanFrom {target index accumulated result : ℕ} {counts : List ℕ}
    (h : scanFrom target index accumulated counts = some result) : index ≤ result := by
  induction counts generalizing index accumulated with
  | nil => cases h
  | cons count rest ih =>
    rw [scanFrom] at h
    split at h
    · cases h
      exact Nat.le_refl _
    · exact Nat.le_of_succ_le (ih h)

/-- A scan stops at or before an offset exactly when the prefix there reaches the target. -/
theorem scanFrom_le_iff {target index accumulated result : ℕ} {counts : List ℕ}
    (h : scanFrom target index accumulated counts = some result) (offset : ℕ) :
    result ≤ index + offset ↔ target ≤ accumulated + prefixTotal counts offset := by
  induction counts generalizing index accumulated offset with
  | nil => cases h
  | cons count rest ih =>
    rw [scanFrom] at h
    split at h
    · rename_i hreached
      cases h
      have hfirst : count ≤ prefixTotal (count :: rest) offset := by
        simp [prefixTotal]
      omega
    · rename_i hlow
      cases offset with
      | zero =>
        have hlater := le_of_scanFrom h
        simp only [prefixTotal, List.take_succ_cons, List.take_zero, List.sum_cons, List.sum_nil]
        omega
      | succ offset =>
        have hrest := ih h offset
        have hprefix : prefixTotal (count :: rest) (offset + 1) =
            count + prefixTotal rest offset := by
          simp [prefixTotal]
        omega

/-- A scan with a reachable target stops. -/
theorem exists_cumulativeScan {target : ℕ} {counts : List ℕ} (hcounts : counts ≠ [])
    (h : target ≤ counts.sum) : ∃ index, cumulativeScan target counts = some index := by
  cases hscan : cumulativeScan target counts with
  | some index => exact ⟨index, rfl⟩
  | none =>
    cases scanFrom_eq_none hscan with
    | inl hnil => exact absurd hnil hcounts
    | inr hlow => omega

/-- The scan's index is at most a bound exactly when the prefix there reaches the target. -/
theorem cumulativeScan_le_iff {target index : ℕ} {counts : List ℕ}
    (h : cumulativeScan target counts = some index) (bound : ℕ) :
    index ≤ bound ↔ target ≤ prefixTotal counts bound := by
  simpa using scanFrom_le_iff h bound

end Steve.Library
