import Steve.Payload.BlockMutation

/-!
# Mutating the whole block with a seed for each step

The use cases mutate one block over and over and number the seeds by the step. A block then
holds the exclusive or of the masks of all steps so far, in the words that the entry point
reaches: all of them, or a leading share.
-/

namespace Steve.Payload

open Steve.Library

/-- The masks of the first steps, folded together. -/
def foldedMasks (mask : ℕ → BitVec 64) : ℕ → BitVec 64
  | 0 => 0#64
  | count + 1 => foldedMasks mask count ^^^ mask count

/-- A zeroed block after some steps, each of which folds its mask into the leading words. -/
def seededBlock (mask : ℕ → BitVec 64) (words size count : ℕ) : List Byte :=
  xorPattern (maskPattern (foldedMasks mask count) words) (List.replicate size 0#8)

/-- The mask `mutate_entropy_block` derives from a 64-bit seed. -/
def ratioMask (seed : ℕ) : BitVec 64 := BitVec.ofNat 64 (seed ^^^ 0x9E3779B97F4A7C15)

/-- The words `mutate_entropy_block` reaches in a block. -/
def ratioWords (ratio : ℚ) (size : ℕ) : ℕ := min ⌊(size / 8 : ℕ) * ratio⌋₊ (size / 8)

/-- A block keeps its size. -/
@[simp] theorem seededBlock_length (mask : ℕ → BitVec 64) (words size count : ℕ) :
    (seededBlock mask words size count).length = size := by
  simp [seededBlock]

/-- One more step folds its mask in. -/
theorem seededBlock_succ (mask : ℕ → BitVec 64) (words size count : ℕ) :
    seededBlock mask words size (count + 1) =
      xorPattern (maskPattern (mask count) words) (seededBlock mask words size count) := by
  simp only [seededBlock, foldedMasks, xorPattern_xorPattern, maskPattern_xor]

namespace PySIMDPayloadMutator

variable {size : ℕ}

/-- A fresh mutator shows the block before the first step. -/
theorem fresh_seededBlock (mask : ℕ → BitVec 64) (words size address : ℕ) :
    (fresh size address).WholeBlock address (seededBlock mask words size 0) := by
  have hzeros : seededBlock mask words size 0 = blockAfter 0 size 0 := by
    have hpattern : maskPattern (foldedMasks mask 0) words = fun _ => 0#8 := by
      funext j
      simp [foldedMasks, maskPattern, wordByte]
    rw [seededBlock, hpattern, xorPattern_zero]
    rfl
  rw [hzeros]
  exact fresh_wholeBlock 0 size address

/-- A step with `apply_entropy` under its number. -/
theorem applyEntropy_seededBlock {mutator : PySIMDPayloadMutator size} {address step : ℕ}
    (hstep : step < 2 ^ 64)
    (h : mutator.WholeBlock address (seededBlock seedMask (size / 8) size step)) :
    ∃ next : PySIMDPayloadMutator size,
      mutator.applyEntropy 0 size step = (.ok (wholeBuffer size address), next) ∧
        next.WholeBlock address (seededBlock seedMask (size / 8) size (step + 1)) := by
  rw [seededBlock_succ]
  exact applyEntropy_folds (Or.inr hstep) h

/-- One mutation of the whole block by a ratio answers the whole buffer and folds the mask into
the ratio's words. -/
theorem mutateEntropyBlock_folds {mutator : PySIMDPayloadMutator size} {address seed : ℕ}
    {bytes : List Byte} {ratio : ℚ} (hratio : 0 ≤ ratio ∧ ratio ≤ 1) (hseed : seed < 2 ^ 64)
    (h : mutator.WholeBlock address bytes) :
    ∃ next : PySIMDPayloadMutator size,
      mutator.mutateEntropyBlock 0 size ratio seed = (.ok (wholeBuffer size address), next) ∧
        next.WholeBlock address
          (xorPattern (maskPattern (ratioMask seed) (ratioWords ratio size)) bytes) := by
  have hmask : npUint64 (Int.xor seed 0x9E3779B97F4A7C15) = .ok (ratioMask seed) :=
    npUint64_xor hseed (by decide)
  have hnone (hwords : ratioWords ratio size = 0) :
      xorPattern (maskPattern (ratioMask seed) (ratioWords ratio size)) bytes = bytes := by
    rw [hwords, maskPattern_zero_words, xorPattern_zero]
  simp only [mutateEntropyBlock, if_neg (not_not.mpr hratio), h.served]
  by_cases hsize : 8 ≤ size
  · have hview : 8 ≤ (wholeBuffer size address).view.length := hsize
    by_cases hshare : 0 < ⌊(size / 8 : ℕ) * ratio⌋₊
    · have hcount : 0 < ⌊((wholeBuffer size address).view.length / 8 : ℕ) * ratio⌋₊ := hshare
      simp only [if_pos hview, if_pos hcount, hmask]
      refine ⟨_, rfl, h.cached, ?_⟩
      have hwords : 8 * ratioWords ratio size ≤ mutator.buffer.length := by
        rw [mutator.bufferLength]
        exact leadingWords_le (MemoryView.whole size) _
      change mutator.buffer.take 0 ++
        xorWords (ratioMask seed) (ratioWords ratio size) (mutator.buffer.drop 0) = _
      rw [List.take_zero, List.drop_zero, List.nil_append, xorWords_eq_xorPattern _ _ _ hwords,
        h.buffer]
    · have hcount : ¬ 0 < ⌊((wholeBuffer size address).view.length / 8 : ℕ) * ratio⌋₊ := hshare
      simp only [if_pos hview, if_neg hcount]
      refine ⟨_, rfl, ?_⟩
      rw [hnone]
      · exact h
      · rw [ratioWords, Nat.eq_zero_of_not_pos hshare, Nat.zero_min]
  · have hview : ¬ 8 ≤ (wholeBuffer size address).view.length := hsize
    simp only [if_neg hview]
    refine ⟨_, rfl, ?_⟩
    rw [hnone]
    · exact h
    · rw [ratioWords, Nat.div_eq_of_lt (Nat.not_le.mp hsize), Nat.min_zero]

/-- A step with `mutate_entropy_block` under its number. -/
theorem mutateEntropyBlock_seededBlock {mutator : PySIMDPayloadMutator size} {address step : ℕ}
    {ratio : ℚ} (hratio : 0 ≤ ratio ∧ ratio ≤ 1) (hstep : step < 2 ^ 64)
    (h : mutator.WholeBlock address (seededBlock ratioMask (ratioWords ratio size) size step)) :
    ∃ next : PySIMDPayloadMutator size,
      mutator.mutateEntropyBlock 0 size ratio step = (.ok (wholeBuffer size address), next) ∧
        next.WholeBlock address
          (seededBlock ratioMask (ratioWords ratio size) size (step + 1)) := by
  rw [seededBlock_succ]
  exact mutateEntropyBlock_folds hratio hstep h

end PySIMDPayloadMutator

end Steve.Payload
