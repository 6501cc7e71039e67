import Mathlib.Data.BitVec
import Mathlib.Data.Fintype.EquivFin

/-!
# Invertible steps of word mixers

Hash finalizers over fixed-width words are built from three kinds of step: adding a
constant, multiplying by a constant with an inverse, and folding a right shift into the
word by exclusive or. Each is a permutation of the words, hence so is any composition.
-/

namespace Steve.Library

variable {w : ℕ}

/-- Fold a right shift of the word into the word itself. -/
def xorShift (shift : ℕ) (word : BitVec w) : BitVec w := word ^^^ (word >>> shift)

/-- A word that equals its own right shift by a positive amount has no set bit: each bit
repeats at ever higher positions, and those above the width are clear. -/
theorem eq_zero_of_eq_ushiftRight {shift : ℕ} (hshift : 0 < shift) {word : BitVec w}
    (h : word = word >>> shift) : word = 0#w := by
  have hbit (i : ℕ) : word.getLsbD i = word.getLsbD (i + shift) := by
    conv_lhs => rw [h]
    rw [BitVec.getLsbD_ushiftRight, Nat.add_comm]
  have hfar (count i : ℕ) : word.getLsbD i = word.getLsbD (i + count * shift) := by
    induction count with
    | zero => simp
    | succ count ih => rw [ih, hbit, Nat.succ_mul, Nat.add_assoc]
  apply BitVec.eq_of_getLsbD_eq
  intro i _
  rw [hfar w i, BitVec.getLsbD_zero]
  apply BitVec.getLsbD_of_ge
  exact (Nat.le_mul_of_pos_right w hshift).trans (Nat.le_add_left _ _)

/-- Folding in a right shift by a positive amount loses no information. -/
theorem xorShift_injective {shift : ℕ} (hshift : 0 < shift) :
    Function.Injective (xorShift shift : BitVec w → BitVec w) := by
  intro left right h
  have hdifference : left ^^^ right = (left ^^^ right) >>> shift := by
    rw [BitVec.ushiftRight_xor_distrib]
    calc
      left ^^^ right =
          (left ^^^ left >>> shift) ^^^ (right ^^^ left >>> shift) := by
            rw [BitVec.xor_assoc, ← BitVec.xor_assoc (left >>> shift),
              BitVec.xor_comm (left >>> shift) right, BitVec.xor_assoc right,
              BitVec.xor_self, BitVec.xor_zero]
      _ = (right ^^^ right >>> shift) ^^^ (right ^^^ left >>> shift) := by
            change xorShift shift left ^^^ _ = xorShift shift right ^^^ _
            rw [h]
      _ = left >>> shift ^^^ right >>> shift := by
            rw [BitVec.xor_comm right (right >>> shift), BitVec.xor_assoc,
              ← BitVec.xor_assoc right, BitVec.xor_self, BitVec.zero_xor, BitVec.xor_comm]
  exact BitVec.xor_eq_zero_iff.mp (eq_zero_of_eq_ushiftRight hshift hdifference)

/-- Multiplying by a word with an inverse loses no information. -/
theorem mulConst_injective {factor inverse : BitVec w} (h : factor * inverse = 1#w) :
    Function.Injective fun word : BitVec w => word * factor := by
  intro left right heq
  have hproduct := congrArg (· * inverse) heq
  simpa only [BitVec.mul_assoc, h, BitVec.mul_one] using hproduct

/-- Adding a constant loses no information. -/
theorem addConst_injective (constant : BitVec w) :
    Function.Injective fun word : BitVec w => word + constant := by
  intro left right h
  exact add_right_cancel h

/-- An injective word step is a permutation of the words. -/
theorem bijective_of_injective {step : BitVec w → BitVec w} (h : Function.Injective step) :
    Function.Bijective step := by
  have : Finite (BitVec w) := Finite.of_injective _ BitVec.equivFin.injective
  exact Finite.injective_iff_bijective.mp h

end Steve.Library
