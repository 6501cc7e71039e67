import Mathlib.Data.Set.Lattice
import Mathlib.Order.CompletePartialOrder
import Mathlib.Order.Interval.Set.Basic
import Mathlib.Tactic.Ring

/-!
# Strided blocks tile the line

`count` lanes write fixed-size blocks round after round: in each round, lane after lane
takes the next block. The lane and the round of a position are the remainder and the
quotient of its block number by the number of lanes, so the blocks partition the line and
any number of complete rounds fills an initial segment of it.
-/

namespace Steve.Library

/-- The positions lane `lane` covers in round `round`. -/
def stridedBlock (count size lane round : ℕ) : Set ℕ :=
  Set.Ico (lane * size + round * (count * size)) (lane * size + round * (count * size) + size)

variable {count size : ℕ}

/-- A position's lane and round are read off its block number. -/
theorem mem_stridedBlock_iff (hsize : 0 < size) {lane round position : ℕ} (hlane : lane < count) :
    position ∈ stridedBlock count size lane round ↔
      position / size % count = lane ∧ position / size / count = round := by
  have hstart : lane * size + round * (count * size) = (lane + count * round) * size := by ring
  have hblock : position ∈ stridedBlock count size lane round ↔
      position / size = lane + count * round := by
    rw [stridedBlock, Set.mem_Ico, hstart, ← Nat.succ_mul, Nat.div_eq_iff hsize]
    have hsucc : (lane + count * round).succ * size = (lane + count * round) * size + size :=
      Nat.succ_mul _ _
    omega
  rw [hblock]
  constructor
  · intro h
    rw [h, Nat.add_mul_mod_self_left, Nat.mod_eq_of_lt hlane,
      Nat.add_mul_div_left _ _ (by omega), Nat.div_eq_of_lt hlane, Nat.zero_add]
    exact ⟨rfl, rfl⟩
  · rintro ⟨hmod, hdiv⟩
    rw [← hmod, ← hdiv]
    exact (Nat.mod_add_div _ _).symm

/-- Distinct lanes or rounds never share a position. -/
theorem stridedBlock_disjoint (hsize : 0 < size) {lane round lane' round' : ℕ}
    (hlane : lane < count) (hlane' : lane' < count) (hne : ¬ (lane = lane' ∧ round = round')) :
    Disjoint (stridedBlock count size lane round) (stridedBlock count size lane' round') := by
  rw [Set.disjoint_left]
  intro position hleft hright
  obtain ⟨hmod, hdiv⟩ := (mem_stridedBlock_iff hsize hlane).mp hleft
  obtain ⟨hmod', hdiv'⟩ := (mem_stridedBlock_iff hsize hlane').mp hright
  exact hne ⟨hmod.symm.trans hmod', hdiv.symm.trans hdiv'⟩

/-- Two lane counts put a block in the same place in the first round only. -/
theorem stridedBlock_eq_iff (hsize : 0 < size) (count count' lane round : ℕ) :
    stridedBlock count size lane round = stridedBlock count' size lane round ↔
      round = 0 ∨ count = count' := by
  constructor
  · intro h
    have hstart (count : ℕ) : lane * size + round * (count * size) ∈
        stridedBlock count size lane round :=
      Set.mem_Ico.mpr ⟨Nat.le_refl _, Nat.lt_add_of_pos_right hsize⟩
    have hbefore := (Set.mem_Ico.mp (h ▸ hstart count)).1
    have hafter := (Set.mem_Ico.mp (h.symm ▸ hstart count')).1
    have hequal : round * (count * size) = round * (count' * size) := by omega
    rcases Nat.eq_zero_or_pos round with hfirst | hlater
    · exact Or.inl hfirst
    · exact Or.inr (Nat.eq_of_mul_eq_mul_right hsize (Nat.eq_of_mul_eq_mul_left hlater hequal))
  · intro h
    rcases h with hfirst | hcount
    · rw [hfirst, stridedBlock, stridedBlock, Nat.zero_mul, Nat.zero_mul]
    · rw [hcount]

/-- The lane and round covering a position exist. -/
theorem mem_stridedBlock_self (hsize : 0 < size) (hcount : 0 < count) (position : ℕ) :
    position ∈ stridedBlock count size (position / size % count) (position / size / count) :=
  (mem_stridedBlock_iff hsize (Nat.mod_lt _ hcount)).mpr ⟨rfl, rfl⟩

/-- Complete rounds of all lanes fill exactly an initial segment. -/
theorem mem_rounds_iff (hsize : 0 < size) (rounds position : ℕ) :
    (∃ lane < count, ∃ round < rounds, position ∈ stridedBlock count size lane round) ↔
      position < rounds * count * size := by
  constructor
  · rintro ⟨lane, hlane, round, hround, hposition⟩
    obtain ⟨-, hdiv⟩ := (mem_stridedBlock_iff hsize hlane).mp hposition
    have hcount : 0 < count := by omega
    rw [← hdiv, Nat.div_lt_iff_lt_mul hcount, Nat.div_lt_iff_lt_mul hsize] at hround
    exact hround
  · intro hposition
    have hcount : 0 < count := by
      apply Nat.pos_of_ne_zero
      rintro rfl
      simp at hposition
    refine ⟨_, Nat.mod_lt _ hcount, _, ?_, mem_stridedBlock_self hsize hcount position⟩
    rw [Nat.div_lt_iff_lt_mul hcount, Nat.div_lt_iff_lt_mul hsize]
    exact hposition

end Steve.Library
