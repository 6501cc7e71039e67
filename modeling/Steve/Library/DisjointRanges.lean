import Mathlib.Data.Set.Card
import Mathlib.Data.Set.Lattice
import Mathlib.Order.CompletePartialOrder
import Mathlib.SetTheory.Cardinal.Finite
import Mathlib.Order.Interval.Set.Basic

/-!
# Places covered by ranges in several containers

Finitely many ranges of positions, each in one of several containers, cover as many places
as their sizes add up to, provided that no two of them meet in one container.
-/

namespace Steve.Library

variable {ι F : Type*} (container : ι → F) (first size : ι → ℕ)

/-- The positions covered, each with its container. -/
def places : Set (F × ℕ) :=
  {place | ∃ i, container i = place.1 ∧ place.2 ∈ Set.Ico (first i) (first i + size i)}

/-- No two ranges meet in one container. -/
def RangesDisjoint : Prop :=
  ∀ i j, i ≠ j → container i = container j →
    Disjoint (Set.Ico (first i) (first i + size i)) (Set.Ico (first j) (first j + size j))

/-- The place at a distance from the start of a range. -/
def placeAt (spot : Σ i, Fin (size i)) : F × ℕ :=
  (container spot.1, first spot.1 + spot.2)

variable {container first size}

/-- Every covered place is at some distance from the start of a range. -/
theorem places_eq_range : places container first size = Set.range (placeAt container first size) := by
  ext place
  constructor
  · rintro ⟨i, hcontainer, hlow, hhigh⟩
    refine ⟨⟨i, ⟨place.2 - first i, by omega⟩⟩, ?_⟩
    exact Prod.ext hcontainer (Nat.add_sub_cancel' hlow)
  · rintro ⟨⟨i, distance⟩, rfl⟩
    exact ⟨i, rfl, Nat.le_add_right _ _, Nat.add_lt_add_left distance.isLt _⟩

/-- Disjoint ranges name every place once. -/
theorem placeAt_injective (h : RangesDisjoint container first size) :
    Function.Injective (placeAt container first size) := by
  rintro ⟨i, distance⟩ ⟨j, distance'⟩ hsame
  have hcontainer : container i = container j := congrArg Prod.fst hsame
  have hposition : first i + distance = first j + distance' := congrArg Prod.snd hsame
  have hindex : i = j := by
    by_contra hne
    refine Set.disjoint_left.mp (h i j hne hcontainer)
      ⟨Nat.le_add_right (first i) distance, Nat.add_lt_add_left distance.isLt _⟩ ?_
    rw [hposition]
    exact ⟨Nat.le_add_right _ _, Nat.add_lt_add_left distance'.isLt _⟩
  subst hindex
  have hdistance : distance = distance' := Fin.ext (Nat.add_left_cancel hposition)
  rw [hdistance]

/-- Disjoint ranges cover as many places as their sizes add up to. -/
theorem ncard_places [Fintype ι] (h : RangesDisjoint container first size) :
    (places container first size).ncard = ∑ i, size i := by
  rw [places_eq_range, Set.ncard_range_of_injective (placeAt_injective h), Nat.card_sigma]
  simp only [Nat.card_eq_fintype_card, Fintype.card_fin]

end Steve.Library
