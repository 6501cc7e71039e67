import Mathlib.Data.List.GetD
import Mathlib.Data.List.Sort
import Mathlib.Order.BoundedOrder.Basic

/-!
# Order statistics of a list

The value of a rank is read off the sorted list, with ranks counted from one and the bottom
of the order at rank zero. Whether it lies below a bound is decided by counting the entries
up to the bound, so two lists are compared rank by rank exactly by comparing their counts.
-/

namespace Steve.Library

variable {A : Type*} [LinearOrder A]

/-- The entries in ascending order. -/
def ascending (values : List A) : List A := values.insertionSort (· ≤ ·)

/-- The entries up to a bound, counted. -/
def countUpTo (values : List A) (bound : A) : ℕ := values.countP fun value => decide (value ≤ bound)

/-- Sorting preserves the entries. -/
theorem ascending_perm (values : List A) : (ascending values).Perm values :=
  List.perm_insertionSort _ _

/-- Sorting orders the entries. -/
theorem ascending_pairwise (values : List A) : (ascending values).Pairwise (· ≤ ·) :=
  List.pairwise_insertionSort _ _

/-- Sorting keeps the number of entries. -/
theorem ascending_length (values : List A) : (ascending values).length = values.length :=
  (ascending_perm values).length_eq

/-- A rearrangement has the same entries up to a bound. -/
theorem countUpTo_perm {first second : List A} (h : first.Perm second) (bound : A) :
    countUpTo first bound = countUpTo second bound := h.countP_eq _

/-- Lowering entries counts no fewer of them. -/
theorem countUpTo_anti {first second : List A} (h : List.Forall₂ (· ≤ ·) first second)
    (bound : A) : countUpTo second bound ≤ countUpTo first bound := by
  induction h with
  | nil => exact Nat.le_refl _
  | @cons low high _ _ hle _ ih =>
    simp only [countUpTo, List.countP_cons] at ih ⊢
    have himp : high ≤ bound → low ≤ bound := fun hhigh => hle.trans hhigh
    by_cases hhigh : high ≤ bound
    · simp only [hhigh, himp hhigh, decide_true, if_true]
      omega
    · simp only [hhigh, decide_false, Bool.false_eq_true, if_false]
      omega

/-- An entry of a sorted list is at most a bound exactly when its position lies among the
entries up to the bound. -/
theorem getElem_le_iff {values : List A} (h : values.Pairwise (· ≤ ·)) (bound : A) {i : ℕ}
    (hi : i < values.length) : values[i] ≤ bound ↔ i < countUpTo values bound := by
  induction values generalizing i with
  | nil => simp at hi
  | cons first rest ih =>
    obtain ⟨hfirst, hrest⟩ := List.pairwise_cons.mp h
    by_cases hle : first ≤ bound
    · have hcount : countUpTo (first :: rest) bound = countUpTo rest bound + 1 := by
        simp [countUpTo, hle]
      rw [hcount]
      cases i with
      | zero => simp [hle]
      | succ i =>
        rw [List.getElem_cons_succ, ih hrest (by simpa using hi)]
        omega
    · -- the first entry is the least, so nothing is counted
      have hcount : countUpTo (first :: rest) bound = 0 := by
        rw [countUpTo, List.countP_eq_zero]
        intro value hvalue
        rw [decide_eq_true_eq]
        intro hbound
        cases List.mem_cons.mp hvalue with
        | inl heq => exact hle (heq ▸ hbound)
        | inr hmem => exact hle ((hfirst value hmem).trans hbound)
      rw [hcount]
      have habove : first ≤ (first :: rest)[i] := by
        cases i with
        | zero => exact le_refl _
        | succ i => exact hfirst _ (List.getElem_mem _)
      constructor
      · intro hbound
        exact absurd (habove.trans hbound) hle
      · intro hlt
        omega

/-- Two lists agree rank by rank up to `≤` when they do so once sorted. -/
def RankwiseLe (first second : List A) : Prop :=
  List.Forall₂ (· ≤ ·) (ascending first) (ascending second)

/-- Rank by rank larger entries are no more frequent up to any bound. -/
theorem RankwiseLe.countUpTo_le {first second : List A} (h : RankwiseLe first second)
    (bound : A) : countUpTo second bound ≤ countUpTo first bound := by
  rw [← countUpTo_perm (ascending_perm first), ← countUpTo_perm (ascending_perm second)]
  exact countUpTo_anti h bound

/-- Lists compared rank by rank are equally long. -/
theorem RankwiseLe.length_eq {first second : List A} (h : RankwiseLe first second) :
    first.length = second.length := by
  rw [← ascending_length first, ← ascending_length second]
  exact List.Forall₂.length_eq h

section Ranks

variable [OrderBot A]

/-- The value of a rank counted from one, and the bottom at rank zero. -/
def nthSmallest (values : List A) (rank : ℕ) : A := (⊥ :: ascending values).getD rank ⊥

/-- Rank zero is the bottom. -/
@[simp] theorem nthSmallest_zero (values : List A) : nthSmallest values 0 = ⊥ := rfl

/-- The value of a rank is at most a bound exactly when that many entries are. -/
theorem nthSmallest_le_iff {values : List A} {rank : ℕ} (h : rank ≤ values.length) (bound : A) :
    nthSmallest values rank ≤ bound ↔ rank ≤ countUpTo values bound := by
  cases rank with
  | zero => simp
  | succ rank =>
    have hrank : rank < (ascending values).length := by
      rw [ascending_length]
      exact h
    have hget : nthSmallest values (rank + 1) = (ascending values)[rank] := by
      rw [nthSmallest, List.getD_cons_succ, List.getD_eq_getElem _ _ hrank]
    rw [hget, getElem_le_iff (ascending_pairwise values) bound hrank,
      countUpTo_perm (ascending_perm values)]
    exact Nat.lt_iff_add_one_le

/-- Higher ranks have no smaller values. -/
theorem nthSmallest_mono {values : List A} {low high : ℕ} (h : low ≤ high)
    (hhigh : high ≤ values.length) : nthSmallest values low ≤ nthSmallest values high := by
  rw [nthSmallest_le_iff (h.trans hhigh)]
  exact h.trans ((nthSmallest_le_iff hhigh _).mp (le_refl _))

end Ranks

end Steve.Library
