import Mathlib.Data.Finset.Card
import Mathlib.Data.Finset.Range
import Mathlib.Data.Nat.ModEq
import Mathlib.Order.Bounds.Basic

/-!
# Walking around a ring in steps of a fixed width

The residues of the multiples of a width repeat with the length of the ring over its common
divisor with the width, and not before. So some number of steps visits that many residues, or
as many as there are steps, and the visit of a residue is its last exactly among the last
steps of that number.
-/

namespace Steve.Library

/-- The steps after which a walk around a ring repeats. -/
def walkPeriod (width ring : ℕ) : ℕ := ring / Nat.gcd ring width

/-- A walk around a ring repeats after at least one step. -/
theorem walkPeriod_pos (width : ℕ) {ring : ℕ} (hring : 0 < ring) : 0 < walkPeriod width ring :=
  Nat.div_gcd_pos_of_pos_left width hring

/-- Two steps stand at one residue exactly when they agree modulo the period. -/
theorem walk_eq_iff (width : ℕ) {ring : ℕ} (hring : 0 < ring) (i j : ℕ) :
    i * width % ring = j * width % ring ↔
      i % walkPeriod width ring = j % walkPeriod width ring := by
  rw [Nat.mul_comm i, Nat.mul_comm j]
  constructor
  · exact fun h => Nat.ModEq.cancel_left_div_gcd hring h
  · intro h
    have hscaled : Nat.gcd ring width * i ≡ Nat.gcd ring width * j
        [MOD Nat.gcd ring width * walkPeriod width ring] := Nat.ModEq.mul_left' _ h
    rw [walkPeriod, Nat.mul_div_cancel' (Nat.gcd_dvd_left ring width)] at hscaled
    obtain ⟨factor, hfactor⟩ := Nat.gcd_dvd_right ring width
    have hwalk := hscaled.mul_left factor
    rw [← Nat.mul_assoc, ← Nat.mul_assoc, Nat.mul_comm factor, ← hfactor] at hwalk
    exact hwalk

/-- Some steps visit as many residues as there are steps, or points on the walk. -/
theorem card_walk (width : ℕ) {ring : ℕ} (hring : 0 < ring) (count : ℕ) :
    ((Finset.range count).image fun i => i * width % ring).card =
      min count (walkPeriod width ring) := by
  have hpos := walkPeriod_pos width hring
  have hvisited : (Finset.range count).image (fun i => i * width % ring) =
      (Finset.range (min count (walkPeriod width ring))).image fun i => i * width % ring := by
    apply Finset.Subset.antisymm
    · intro residue hresidue
      obtain ⟨i, hi, rfl⟩ := Finset.mem_image.mp hresidue
      have hi := Finset.mem_range.mp hi
      apply Finset.mem_image.mpr
      refine ⟨i % walkPeriod width ring, Finset.mem_range.mpr ?_, ?_⟩
      · exact lt_min ((Nat.mod_le i _).trans_lt hi) (Nat.mod_lt i hpos)
      · exact (walk_eq_iff width hring _ _).mpr (Nat.mod_mod _ _)
    · apply Finset.image_subset_image
      exact Finset.range_mono (Nat.min_le_left _ _)
  rw [hvisited, Finset.card_image_of_injOn, Finset.card_range]
  intro i hi j hj hsame
  have hi := Finset.mem_range.mp hi
  have hj := Finset.mem_range.mp hj
  have hmod := (walk_eq_iff width hring i j).mp hsame
  rwa [Nat.mod_eq_of_lt (hi.trans_le (Nat.min_le_right _ _)),
    Nat.mod_eq_of_lt (hj.trans_le (Nat.min_le_right _ _))] at hmod

/-- A step of a walk is the last at its residue exactly among the last steps of a period. -/
theorem isGreatest_walk_iff (width : ℕ) {ring : ℕ} (hring : 0 < ring) {count step : ℕ}
    (hstep : step < count) :
    IsGreatest {i | i < count ∧ i * width % ring = step * width % ring} step ↔
      count ≤ step + walkPeriod width ring := by
  have hpos := walkPeriod_pos width hring
  constructor
  · rintro ⟨-, hlast⟩
    by_contra hlater
    have hnext : step + walkPeriod width ring ≤ step :=
      hlast ⟨Nat.not_le.mp hlater, (walk_eq_iff width hring _ _).mpr (Nat.add_mod_right _ _)⟩
    omega
  · intro hperiod
    refine ⟨⟨hstep, rfl⟩, ?_⟩
    rintro i ⟨hi, hsame⟩
    have hmod := (walk_eq_iff width hring i step).mp hsame
    by_contra hlater
    have hlater := Nat.not_le.mp hlater
    have hequal : (i - step) % walkPeriod width ring = 0 :=
      Nat.sub_mod_eq_zero_of_mod_eq hmod
    rw [Nat.mod_eq_of_lt (by omega)] at hequal
    omega

end Steve.Library
