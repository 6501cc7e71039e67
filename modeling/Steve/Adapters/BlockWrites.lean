import Mathlib.Order.Bounds.Basic
import Steve.Adapters.FileImage

/-!
# Writing blocks one after the other

Blocks of one size are written in turn at multiples of that size, to places that may repeat.
A byte then shows the last block written over its place, or what the file held before where
none was.
-/

namespace Steve.Adapters

open Steve.Library

/-- A file's content after some blocks are written in turn, each at its place. -/
def writeBlocks (size : ℕ) (place : ℕ → ℕ) (data : ℕ → List Byte) (content : List Byte) :
    ℕ → List Byte
  | 0 => content
  | count + 1 =>
    writeAt (writeBlocks size place data content count) (place count * size) (data count)

/-- The byte of a zeroed block. -/
theorem byteAt_zeros (size position : ℕ) : byteAt (List.replicate size 0#8) position = 0 := by
  simp [byteAt, List.getD_eq_getElem?_getD, List.getElem?_replicate]
  split <;> rfl

section Blocks

variable {size : ℕ} {place : ℕ → ℕ} {data : ℕ → List Byte} {content : List Byte}

/-- One block is shown at its place. -/
theorem byteAt_writeBlock (hsize : 0 < size) {block : List Byte} (hblock : block.length = size)
    (start position : ℕ) :
    byteAt (writeAt content (start * size) block) position =
      if position / size = start then byteAt block (position % size)
      else byteAt content position := by
  rw [byteAt_writeAt, hblock]
  have hcovers : (start * size ≤ position ∧ position < start * size + size) ↔
      position / size = start := by
    rw [Nat.div_eq_iff hsize]
    omega
  by_cases h : position / size = start
  · rw [if_pos (hcovers.mpr h), if_pos h]
    have hposition := Nat.div_add_mod' position size
    rw [h] at hposition
    congr 1
    omega
  · rw [if_neg fun hcovered => h (hcovers.mp hcovered), if_neg h]

/-- A place shows the last block written there. -/
theorem byteAt_writeBlocks_last (hsize : 0 < size) {count : ℕ}
    (hdata : ∀ i < count, (data i).length = size) {last position : ℕ}
    (hlast : IsGreatest {i | i < count ∧ place i = position / size} last) :
    byteAt (writeBlocks size place data content count) position =
      byteAt (data last) (position % size) := by
  obtain ⟨⟨hcount, hplace⟩, hlater⟩ := hlast
  induction count with
  | zero => exact absurd hcount (Nat.not_lt_zero last)
  | succ count ih =>
    rw [writeBlocks, byteAt_writeBlock hsize (hdata count (Nat.lt_succ_self count))]
    by_cases h : position / size = place count
    · have hle : count ≤ last := hlater ⟨Nat.lt_succ_self count, h.symm⟩
      have hlast : last = count := by omega
      rw [if_pos h, hlast]
    · rw [if_neg h]
      apply ih
      · exact fun i hi => hdata i (Nat.lt_succ_of_lt hi)
      · rintro i ⟨hi, hsame⟩
        exact hlater ⟨Nat.lt_succ_of_lt hi, hsame⟩
      · apply lt_of_le_of_ne (Nat.le_of_lt_succ hcount)
        rintro rfl
        exact h hplace.symm

/-- A place no block was written to is as it was. -/
theorem byteAt_writeBlocks_untouched (hsize : 0 < size) {count : ℕ}
    (hdata : ∀ i < count, (data i).length = size) {position : ℕ}
    (hplace : ∀ i < count, place i ≠ position / size) :
    byteAt (writeBlocks size place data content count) position = byteAt content position := by
  induction count with
  | zero => rfl
  | succ count ih =>
    rw [writeBlocks, byteAt_writeBlock hsize (hdata count (Nat.lt_succ_self count)),
      if_neg (Ne.symm (hplace count (Nat.lt_succ_self count)))]
    apply ih
    · exact fun i hi => hdata i (Nat.lt_succ_of_lt hi)
    · exact fun i hi => hplace i (Nat.lt_succ_of_lt hi)

/-- Blocks written side by side are all shown. -/
theorem byteAt_writeBlocks_sideBySide (hsize : 0 < size) {count : ℕ}
    (hdata : ∀ i < count, (data i).length = size) (position : ℕ) :
    byteAt (writeBlocks size id data content count) position =
      if position < count * size then byteAt (data (position / size)) (position % size)
      else byteAt content position := by
  by_cases h : position < count * size
  · have hplace : position / size < count := (Nat.div_lt_iff_lt_mul hsize).mpr h
    rw [if_pos h]
    apply byteAt_writeBlocks_last hsize hdata
    exact ⟨⟨hplace, rfl⟩, fun i hi => hi.2.le⟩
  · rw [if_neg h]
    apply byteAt_writeBlocks_untouched hsize hdata
    rintro i hi rfl
    exact h ((Nat.div_lt_iff_lt_mul hsize).mp hi)

/-- One block written to several places is shown at each of them. -/
theorem byteAt_writeBlocks_const (hsize : 0 < size) {block : List Byte}
    (hblock : block.length = size) (count position : ℕ) :
    byteAt (writeBlocks size place (fun _ => block) content count) position =
      if ∃ i < count, place i = position / size then byteAt block (position % size)
      else byteAt content position := by
  induction count with
  | zero =>
    rw [if_neg]
    · rfl
    · rintro ⟨i, hi, -⟩
      exact Nat.not_lt_zero i hi
  | succ count ih =>
    rw [writeBlocks, byteAt_writeBlock hsize hblock, ih]
    by_cases h : position / size = place count
    · rw [if_pos h, if_pos ⟨count, Nat.lt_succ_self count, h.symm⟩]
    · have hplaces : (∃ i < count + 1, place i = position / size) ↔
          ∃ i < count, place i = position / size := by
        constructor
        · rintro ⟨i, hi, hplace⟩
          refine ⟨i, lt_of_le_of_ne (Nat.le_of_lt_succ hi) ?_, hplace⟩
          rintro rfl
          exact h hplace.symm
        · rintro ⟨i, hi, hplace⟩
          exact ⟨i, Nat.lt_succ_of_lt hi, hplace⟩
      rw [if_neg h]
      simp only [hplaces]

end Blocks

end Steve.Adapters
