import Steve.Payload.Mutator

/-!
# Mutating the whole block over and over

A worker always mutates its whole mapping with one seed. The first mutation of a fresh
mapping writes the seed's mask into every word; since folding a mask in twice undoes it,
the next one restores the zeros, and the contents alternate from then on.
-/

namespace Steve.Payload

open Steve.Library
open Steve.Adapters (DirectBuffer)

/-- The mask `apply_entropy` derives from a 64-bit seed. -/
def seedMask (seed : ℕ) : BitVec 64 := BitVec.ofNat 64 (seed ^^^ 0x5555555555555555)

/-- A zeroed block with a mask in every whole word. -/
def maskedBlock (mask : BitVec 64) (size : ℕ) : List Byte :=
  xorPattern (maskPattern mask (size / 8)) (List.replicate size 0#8)

/-- The contents of a fresh block after some number of mutations with one seed. -/
def blockAfter (seed size mutations : ℕ) : List Byte :=
  if mutations % 2 = 0 then List.replicate size 0#8 else maskedBlock (seedMask seed) size

/-- A block keeps its size. -/
theorem blockAfter_length (seed size mutations : ℕ) :
    (blockAfter seed size mutations).length = size := by
  unfold blockAfter maskedBlock
  split <;> simp

/-- One more mutation folds the mask in once more. -/
theorem blockAfter_succ (seed size mutations : ℕ) :
    blockAfter seed size (mutations + 1) =
      xorPattern (maskPattern (seedMask seed) (size / 8)) (blockAfter seed size mutations) := by
  unfold blockAfter
  by_cases h : mutations % 2 = 0
  · rw [if_pos h, if_neg (by omega), maskedBlock]
  · rw [if_neg h, if_pos (by omega), maskedBlock, xorPattern_self]

/-- One more mutation changes every whole word, unless its mask is zero. -/
theorem changedWords_blockAfter (seed size mutations : ℕ) :
    changedWords (blockAfter seed size mutations) (blockAfter seed size (mutations + 1)) =
      if seedMask seed = 0#64 then 0 else size / 8 := by
  have hwords : 8 * (size / 8) ≤ (blockAfter seed size mutations).length := by
    rw [blockAfter_length]
    exact Nat.mul_div_le size 8
  rw [blockAfter_succ, changedWords_maskPattern _ _ _ hwords]

/-- Building the mask of a 64-bit seed never raises. -/
theorem npUint64_xor {seed pattern : ℕ} (hseed : seed < 2 ^ 64) (hpattern : pattern < 2 ^ 64) :
    npUint64 (Int.xor seed pattern) = .ok (BitVec.ofNat 64 (seed ^^^ pattern)) := by
  have hxor : Int.xor seed pattern = ((seed ^^^ pattern : ℕ) : ℤ) := rfl
  have hlt : seed ^^^ pattern < 2 ^ 64 := Nat.xor_lt_two_pow hseed hpattern
  rw [hxor, npUint64, if_pos ⟨Int.natCast_nonneg _, by exact_mod_cast hlt⟩, BitVec.ofInt_natCast]

/-- Neither does building the mask `apply_entropy` derives from it. -/
theorem npUint64_seed {seed : ℕ} (hseed : seed < 2 ^ 64) :
    npUint64 (Int.xor seed 0x5555555555555555) = .ok (seedMask seed) :=
  npUint64_xor hseed (by decide)

namespace PySIMDPayloadMutator

variable {size : ℕ}

/-- The direct buffer of the whole mapping. -/
def wholeBuffer (size address : ℕ) : DirectBuffer (MemoryView size) :=
  ⟨address, size, MemoryView.whole size⟩

/-- A mutator that has only ever been mutated as a whole, with the given contents. -/
structure WholeBlock (mutator : PySIMDPayloadMutator size) (address : ℕ)
    (bytes : List Byte) : Prop where
  cached : mutator.sliceCache.get? (0, size) = some (wholeBuffer size address)
  buffer : mutator.buffer = bytes

/-- A request for the whole mapping is served from the cache. -/
theorem WholeBlock.served {mutator : PySIMDPayloadMutator size} {address : ℕ}
    {bytes : List Byte} (h : mutator.WholeBlock address bytes) :
    mutator.getOrCreateSliceBuffer 0 size = (.ok (wholeBuffer size address), mutator) := by
  rw [getOrCreateSliceBuffer, h.cached]

/-- A fresh mutator shows zeros. -/
theorem fresh_wholeBlock (seed size address : ℕ) :
    (fresh size address).WholeBlock address (blockAfter seed size 0) where
  cached := by
    rw [fresh, Dict.get?_set, if_pos rfl, wholeBuffer]
  buffer := by simp [fresh, blockAfter]

/-- The whole buffer's contents are the whole mapping. -/
theorem contents_wholeBuffer (mutator : PySIMDPayloadMutator size) (address : ℕ) :
    mutator.contents (wholeBuffer size address) = ⟨address, size, mutator.buffer⟩ := by
  have hlength := mutator.bufferLength
  simp [contents, viewBytes, wholeBuffer, MemoryView.whole, ← hlength]

/-- One mutation of the whole block answers the whole buffer and folds the mask in. A block
without a whole word has no mask to build, so its seed may be any number. -/
theorem applyEntropy_folds {mutator : PySIMDPayloadMutator size} {address seed : ℕ}
    {bytes : List Byte} (hseed : size < 8 ∨ seed < 2 ^ 64) (h : mutator.WholeBlock address bytes) :
    ∃ next : PySIMDPayloadMutator size,
      mutator.applyEntropy 0 size seed = (.ok (wholeBuffer size address), next) ∧
        next.WholeBlock address (xorPattern (maskPattern (seedMask seed) (size / 8)) bytes) := by
  simp only [applyEntropy, h.served]
  by_cases hsize : 8 ≤ size
  · have hview : 8 ≤ (wholeBuffer size address).view.length := hsize
    simp only [if_pos hview, npUint64_seed (hseed.resolve_left (Nat.not_lt.mpr hsize))]
    refine ⟨_, rfl, h.cached, ?_⟩
    have hwords : 8 * (size / 8) ≤ mutator.buffer.length := by
      rw [mutator.bufferLength]
      omega
    change mutator.buffer.take 0 ++ xorWords (seedMask seed) (size / 8) (mutator.buffer.drop 0) = _
    rw [List.take_zero, List.drop_zero, List.nil_append,
      xorWords_eq_xorPattern _ _ _ hwords, h.buffer]
  · have hview : ¬ 8 ≤ (wholeBuffer size address).view.length := hsize
    simp only [if_neg hview]
    refine ⟨_, rfl, h.cached, ?_⟩
    have hcount : size / 8 = 0 := by omega
    rw [h.buffer, hcount, maskPattern_zero_words, xorPattern_zero]

/-- One more mutation with one seed. -/
theorem applyEntropy_wholeBlock {mutator : PySIMDPayloadMutator size} {address seed mutations : ℕ}
    (hseed : seed < 2 ^ 64) (h : mutator.WholeBlock address (blockAfter seed size mutations)) :
    ∃ next : PySIMDPayloadMutator size,
      mutator.applyEntropy 0 size seed = (.ok (wholeBuffer size address), next) ∧
        next.WholeBlock address (blockAfter seed size (mutations + 1)) := by
  rw [blockAfter_succ]
  exact applyEntropy_folds (Or.inr hseed) h

end PySIMDPayloadMutator

/-- A masked byte of a zeroed block of whole words. -/
theorem maskedBlock_getElem (mask : BitVec 64) (size k : ℕ) (hsize : 8 ∣ size)
    (hk : k < (maskedBlock mask size).length) :
    (maskedBlock mask size)[k] = wordByte mask (k % 8) := by
  have hk' : k < size := by simpa [maskedBlock] using hk
  have hin : k < 8 * (size / 8) := by omega
  simp [maskedBlock, xorPattern, maskPattern, hin]

/-- A nonempty block of whole words determines its mask. -/
theorem maskedBlock_injective {size : ℕ} (hpos : 0 < size) (hsize : 8 ∣ size)
    {left right : BitVec 64} (h : maskedBlock left size = maskedBlock right size) :
    left = right := by
  apply wordByte_injective
  intro k hk
  have hlength (mask : BitVec 64) : (maskedBlock mask size).length = size := by
    simp [maskedBlock]
  have hk' : k < size := Nat.lt_of_lt_of_le hk (Nat.le_of_dvd hpos hsize)
  have hleft := maskedBlock_getElem left size k hsize (by rw [hlength]; exact hk')
  have hright := maskedBlock_getElem right size k hsize (by rw [hlength]; exact hk')
  rw [Nat.mod_eq_of_lt hk] at hleft hright
  rw [← hleft, ← hright]
  simp only [h]

/-- The zero mask writes zeros. -/
theorem maskedBlock_zero (size : ℕ) : maskedBlock 0#64 size = List.replicate size 0#8 := by
  have hpattern : maskPattern 0#64 (size / 8) = fun _ => 0#8 := by
    funext j
    simp [maskPattern, wordByte]
  rw [maskedBlock, hpattern, xorPattern_zero]

/-- Folding a further mask into a masked block adds it to the block's mask. -/
theorem maskedBlock_folds (mask further : BitVec 64) (size : ℕ) :
    xorPattern (maskPattern further (size / 8)) (maskedBlock mask size) =
      maskedBlock (mask ^^^ further) size := by
  simp only [maskedBlock, xorPattern_xorPattern, maskPattern_xor]

/-- Masks of 64-bit seeds agree exactly when the seeds do. -/
theorem seedMask_inj {left right : ℕ} (hleft : left < 2 ^ 64) (hright : right < 2 ^ 64) :
    seedMask left = seedMask right ↔ left = right := by
  have hlt (seed : ℕ) (hseed : seed < 2 ^ 64) : seed ^^^ 0x5555555555555555 < 2 ^ 64 :=
    Nat.xor_lt_two_pow hseed (by decide)
  rw [seedMask, seedMask, ← BitVec.toNat_inj, BitVec.toNat_ofNat, BitVec.toNat_ofNat,
    Nat.mod_eq_of_lt (hlt left hleft), Nat.mod_eq_of_lt (hlt right hright), Nat.xor_left_inj]

/-- The mask the mutations of a fresh block with one seed add up to. -/
def accumulatedMask (seed mutations : ℕ) : BitVec 64 :=
  if mutations % 2 = 0 then 0#64 else seedMask seed

/-- A mutated block holds the accumulated mask in every whole word. -/
theorem blockAfter_eq_maskedBlock (seed size mutations : ℕ) :
    blockAfter seed size mutations = maskedBlock (accumulatedMask seed mutations) size := by
  unfold blockAfter accumulatedMask
  split
  · rw [maskedBlock_zero]
  · rfl

/-- Two mutated blocks of whole words agree exactly when their accumulated masks do. -/
theorem blockAfter_eq_iff {size : ℕ} (hpos : 0 < size) (hsize : 8 ∣ size)
    (left leftMutations right rightMutations : ℕ) :
    blockAfter left size leftMutations = blockAfter right size rightMutations ↔
      accumulatedMask left leftMutations = accumulatedMask right rightMutations := by
  rw [blockAfter_eq_maskedBlock, blockAfter_eq_maskedBlock]
  exact ⟨maskedBlock_injective hpos hsize, fun h => by rw [h]⟩

end Steve.Payload
