import Steve.Library.ShannonEntropy
import Steve.Payload.SeededBlocks

/-!
# The entropy of mutated blocks

A block with one mask in every word repeats the eight bytes of the mask, whichever seeds the
mask was folded from. So it has at most three bits of entropy in a byte, of the eight it could
have, and exactly three where the mask's bytes are pairwise different.
-/

namespace Steve.Payload

open Steve.Library

/-- Masking zeroed words repeats the mask's bytes. -/
theorem xorWords_zeros (mask : BitVec 64) (words : ℕ) :
    xorWords mask words (List.replicate (8 * words) 0#8) =
      (List.replicate words (wordBytes mask)).flatten := by
  induction words with
  | zero => rfl
  | succ words ih =>
    have hzero : ofBytes (List.replicate 8 0#8) ^^^ mask = mask := by
      rw [show ofBytes (List.replicate 8 0#8) = 0#64 from rfl, BitVec.zero_xor]
    rw [xorWords, Nat.mul_succ, List.take_replicate, Nat.min_eq_left (Nat.le_add_left 8 _),
      List.drop_replicate, Nat.add_sub_cancel, hzero, ih, List.replicate_succ, List.flatten_cons]

/-- A masked block repeats its mask's bytes. -/
theorem maskedBlock_eq_flatten (mask : BitVec 64) (words : ℕ) :
    maskedBlock mask (8 * words) = (List.replicate words (wordBytes mask)).flatten := by
  rw [← xorWords_zeros, xorWords_eq_xorPattern _ _ _ (Nat.le_of_eq List.length_replicate.symm),
    maskedBlock, Nat.mul_div_cancel_left _ (by decide)]

/-- A word has eight bytes. -/
theorem wordBytes_length (word : BitVec 64) : (wordBytes word).length = 8 := by
  rw [wordBytes, List.length_map, List.length_range]

/-- A prefix of whole words inside the masked ones is a masked block. -/
theorem take_maskPattern {mask : BitVec 64} {words size sample : ℕ} (hwords : 8 ∣ sample)
    (hmasked : sample ≤ 8 * words) (hsize : sample ≤ size) :
    (xorPattern (maskPattern mask words) (List.replicate size 0#8)).take sample =
      maskedBlock mask sample := by
  apply List.ext_getElem
  · simp [maskedBlock, hsize]
  · intro j hj hj'
    have hin : j < sample := (List.length_take_le _ _).trans_lt' hj
    have hword : j < 8 * words := hin.trans_le hmasked
    rw [maskedBlock_getElem mask sample j hwords hj']
    simp [xorPattern, maskPattern, hword]

/-- A masked block has the entropy of its mask's bytes. -/
theorem shannonEntropy_maskedBlock (mask : BitVec 64) {size : ℕ} (hpos : 0 < size)
    (hwords : 8 ∣ size) :
    shannonEntropy (maskedBlock mask size) = shannonEntropy (wordBytes mask) := by
  obtain ⟨words, rfl⟩ := hwords
  rw [maskedBlock_eq_flatten, shannonEntropy_repeat (Nat.pos_of_mul_pos_left hpos)]

/-- Eight bytes name three bits. -/
theorem logb_eight : Real.logb 2 (8 : ℕ) = 3 := by
  have hpower : ((8 : ℕ) : ℝ) = (2 : ℝ) ^ (3 : ℕ) := by norm_num
  rw [hpower, Real.logb_pow, Real.logb_self_eq_one one_lt_two]
  norm_num

/-- A word has a byte. -/
theorem wordBytes_ne_nil (word : BitVec 64) : wordBytes word ≠ [] :=
  List.ne_nil_of_length_eq_add_one (wordBytes_length word)

/-- The bytes of a word have at most three bits each. -/
theorem shannonEntropy_wordBytes_le (word : BitVec 64) : shannonEntropy (wordBytes word) ≤ 3 := by
  have hbound := shannonEntropy_le_logb_length (wordBytes_ne_nil word)
  rw [wordBytes_length, logb_eight] at hbound
  exact hbound

/-- They have exactly three where no two of them agree. -/
theorem shannonEntropy_wordBytes_of_nodup {word : BitVec 64} (h : (wordBytes word).Nodup) :
    shannonEntropy (wordBytes word) = 3 := by
  rw [shannonEntropy_of_nodup (wordBytes_ne_nil word) h, wordBytes_length, logb_eight]

end Steve.Payload
