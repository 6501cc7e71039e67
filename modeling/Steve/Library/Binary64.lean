import Mathlib.Data.Int.Log
import Mathlib.Data.Rat.Floor
import Mathlib.Tactic.Linarith
import Mathlib.Tactic.NormNum
import Mathlib.Tactic.Positivity

/-!
# Binary64 arithmetic on exact values

A finite binary64 number is an integer of at most 53 bits times a power of two, which is at
least `2 ^ (-1074)`. The result of an operation is the exact result rounded to the nearest of
these numbers, ties to the even integer. Exponents are not bounded from above: a result of
`2 ^ 1024` or more, which the format does not have, is rounded like any other.
-/

namespace Steve.Library

/-- The nearest integer, and the even one of two. -/
def roundEven (x : ℚ) : ℤ :=
  if x - ⌊x⌋ < 1 / 2 then ⌊x⌋
  else if 1 / 2 < x - ⌊x⌋ then ⌊x⌋ + 1
  else if ⌊x⌋ % 2 = 0 then ⌊x⌋
  else ⌊x⌋ + 1

/-- An integer is its own nearest. -/
@[simp] theorem roundEven_intCast (n : ℤ) : roundEven n = n := by
  rw [roundEven, Int.floor_intCast, sub_self, if_pos (by norm_num)]

/-- The nearest integer is the floor or the next one. -/
theorem roundEven_eq_floor_or (x : ℚ) : roundEven x = ⌊x⌋ ∨ roundEven x = ⌊x⌋ + 1 := by
  rw [roundEven]
  split
  · exact Or.inl rfl
  · split
    · exact Or.inr rfl
    · split
      · exact Or.inl rfl
      · exact Or.inr rfl

/-- Rounding to the nearest integer does not pass one. -/
theorem abs_roundEven_le {x : ℚ} {bound : ℤ} (h : |x| < bound) : |roundEven x| ≤ bound := by
  obtain ⟨hlow, hhigh⟩ := abs_lt.mp h
  have hfloor : ⌊x⌋ < bound := Int.floor_lt.mpr hhigh
  have hneg : -bound ≤ ⌊x⌋ := Int.le_floor.mpr (by push_cast; exact hlow.le)
  rw [abs_le]
  cases roundEven_eq_floor_or x with
  | inl hdown =>
    rw [hdown]
    exact ⟨hneg, hfloor.le⟩
  | inr hup =>
    rw [hup]
    exact ⟨hneg.trans (by omega), hfloor⟩

/-- The exponent of the last of the 53 bits of a number of some magnitude. -/
def lastBitExponent (x : ℚ) : ℤ := max (Int.log 2 |x| - 52) (-1074)

/-- The nearest binary64 number. -/
def nearestBinary64 (x : ℚ) : ℚ :=
  roundEven (x / 2 ^ lastBitExponent x) * 2 ^ lastBitExponent x

/-- A power of two is positive. -/
theorem two_zpow_pos (exponent : ℤ) : (0 : ℚ) < 2 ^ exponent := zpow_pos (by norm_num) exponent

/-- A multiple of the last bit is not rounded. -/
theorem nearestBinary64_of_multiple {x : ℚ} (n : ℤ) (h : x = n * 2 ^ lastBitExponent x) :
    nearestBinary64 x = x := by
  have hquotient : x / 2 ^ lastBitExponent x = n :=
    (div_eq_iff (two_zpow_pos _).ne').mpr h
  rw [nearestBinary64, hquotient, roundEven_intCast, ← h]

/-- Integers of at most 53 bits, times a power of two that is not too small, are not rounded. -/
theorem nearestBinary64_scaled {n : ℤ} (hn : |n| ≤ 2 ^ 53) {exponent : ℤ}
    (hexponent : -1074 ≤ exponent) :
    nearestBinary64 (n * 2 ^ exponent) = n * 2 ^ exponent := by
  by_cases hzero : n = 0
  · rw [hzero, Int.cast_zero, zero_mul]
    apply nearestBinary64_of_multiple 0
    rw [Int.cast_zero, zero_mul]
  have hmagnitude : |(n : ℚ) * 2 ^ exponent| = (|n| : ℤ) * 2 ^ exponent := by
    rw [abs_mul, abs_of_pos (two_zpow_pos exponent), Int.cast_abs]
  have hpos : 0 < |(n : ℚ) * 2 ^ exponent| := by
    rw [hmagnitude]
    exact mul_pos (Int.cast_pos.mpr (abs_pos.mpr hzero)) (two_zpow_pos exponent)
  by_cases hfull : |n| = 2 ^ 53
  · -- the next binade starts here, and its last bit is twice as large
    have hlog : Int.log 2 |(n : ℚ) * 2 ^ exponent| = 53 + exponent := by
      have hpower : ((2 ^ 53 : ℤ) : ℚ) * 2 ^ exponent = ((2 : ℕ) : ℚ) ^ (53 + exponent) := by
        rw [zpow_add₀ (by norm_num)]
        norm_num
      rw [hmagnitude, hfull, hpower]
      exact Int.log_zpow (by norm_num) _
    have hlast : lastBitExponent (n * 2 ^ exponent) = exponent + 1 := by
      rw [lastBitExponent, hlog, max_eq_left (by omega)]
      ring
    have heven : ∃ half : ℤ, n = half * 2 := by
      cases abs_choice n with
      | inl hself => exact ⟨2 ^ 52, by rw [← hself, hfull]; norm_num⟩
      | inr hneg => exact ⟨-2 ^ 52, by rw [← neg_neg n, ← hneg, hfull]; norm_num⟩
    obtain ⟨half, rfl⟩ := heven
    apply nearestBinary64_of_multiple half
    rw [hlast, zpow_add₀ (by norm_num : (2 : ℚ) ≠ 0), zpow_one]
    push_cast
    ring
  · have hsmall : |n| < 2 ^ 53 := lt_of_le_of_ne hn hfull
    have hlog : Int.log 2 |(n : ℚ) * 2 ^ exponent| < 53 + exponent := by
      rw [← Int.lt_zpow_iff_log_lt (by norm_num) hpos, hmagnitude]
      have hpower : ((2 : ℕ) : ℚ) ^ (53 + exponent) = ((2 ^ 53 : ℤ) : ℚ) * 2 ^ exponent := by
        rw [zpow_add₀ (by norm_num)]
        norm_num
      rw [hpower]
      exact mul_lt_mul_of_pos_right (Int.cast_lt.mpr hsmall) (two_zpow_pos exponent)
    have hlast : lastBitExponent (n * 2 ^ exponent) ≤ exponent := by
      rw [lastBitExponent]
      omega
    obtain ⟨shift, hshift⟩ := Int.le.dest hlast
    apply nearestBinary64_of_multiple (n * 2 ^ shift)
    have hpower : (2 : ℚ) ^ exponent =
        2 ^ shift * 2 ^ lastBitExponent (n * 2 ^ exponent) := by
      rw [← zpow_natCast, ← zpow_add₀ (by norm_num : (2 : ℚ) ≠ 0), Int.add_comm, hshift]
    push_cast
    rw [mul_assoc, ← hpower]

/-- Rounding again changes nothing. -/
@[simp] theorem nearestBinary64_nearestBinary64 (x : ℚ) :
    nearestBinary64 (nearestBinary64 x) = nearestBinary64 x := by
  have hbound : |x / 2 ^ lastBitExponent x| < ((2 ^ 53 : ℤ) : ℚ) := by
    rw [abs_div, abs_of_pos (two_zpow_pos _), div_lt_iff₀ (two_zpow_pos _)]
    have hlog : |x| < ((2 : ℕ) : ℚ) ^ (Int.log 2 |x| + 1) :=
      Int.lt_zpow_succ_log_self (by norm_num) _
    have hexponent : Int.log 2 |x| + 1 ≤ 53 + lastBitExponent x := by
      rw [lastBitExponent]
      omega
    calc |x| < ((2 : ℕ) : ℚ) ^ (Int.log 2 |x| + 1) := hlog
      _ ≤ ((2 : ℕ) : ℚ) ^ (53 + lastBitExponent x) :=
        zpow_le_zpow_right₀ (by norm_num) hexponent
      _ = ((2 ^ 53 : ℤ) : ℚ) * 2 ^ lastBitExponent x := by
        rw [zpow_add₀ (by norm_num)]
        norm_num
  exact nearestBinary64_scaled (abs_roundEven_le hbound) (le_max_right _ _)

/-- Integers of at most 53 bits are binary64 numbers. -/
theorem nearestBinary64_intCast {n : ℤ} (h : |n| ≤ 2 ^ 53) : nearestBinary64 n = n := by
  have hscaled : nearestBinary64 (n * 2 ^ (0 : ℤ)) = n * 2 ^ (0 : ℤ) :=
    nearestBinary64_scaled h (by norm_num)
  rwa [zpow_zero, mul_one] at hscaled

/-- A binary64 number: a value that rounding leaves alone. -/
structure Binary64 where
  value : ℚ
  rounded : nearestBinary64 value = value

namespace Binary64

/-- The number nearest to an exact result. -/
def ofExact (x : ℚ) : Binary64 := ⟨nearestBinary64 x, nearestBinary64_nearestBinary64 x⟩

instance : Mul Binary64 := ⟨fun left right => ofExact (left.value * right.value)⟩

instance : Add Binary64 := ⟨fun left right => ofExact (left.value + right.value)⟩

/-- An integer converted to binary64. -/
instance : IntCast Binary64 := ⟨fun n => ofExact n⟩

instance : LE Binary64 := ⟨fun left right => left.value ≤ right.value⟩

instance (left right : Binary64) : Decidable (left ≤ right) :=
  inferInstanceAs (Decidable (left.value ≤ right.value))

/-- The integer part, towards zero. -/
def trunc (x : Binary64) : ℤ := if 0 ≤ x.value then ⌊x.value⌋ else ⌈x.value⌉

/-- Small integers are converted without loss. -/
theorem value_intCast {n : ℤ} (h : |n| ≤ 2 ^ 53) : (n : Binary64).value = n :=
  nearestBinary64_intCast h

/-- Two numbers with one value are the same. -/
theorem ext_value {left right : Binary64} (h : left.value = right.value) : left = right := by
  cases left
  cases right
  cases h
  rfl

/-- Small integers are multiplied exactly. -/
theorem intCast_mul {m n : ℤ} (hm : |m| ≤ 2 ^ 53) (hn : |n| ≤ 2 ^ 53) :
    (m : Binary64) * (n : Binary64) = ((m * n : ℤ) : Binary64) := by
  apply ext_value
  change nearestBinary64 ((m : Binary64).value * (n : Binary64).value) =
    nearestBinary64 ((m * n : ℤ) : ℚ)
  rw [value_intCast hm, value_intCast hn, Int.cast_mul]

/-- Small integers are added exactly. -/
theorem intCast_add {m n : ℤ} (hm : |m| ≤ 2 ^ 53) (hn : |n| ≤ 2 ^ 53) :
    (m : Binary64) + (n : Binary64) = ((m + n : ℤ) : Binary64) := by
  apply ext_value
  change nearestBinary64 ((m : Binary64).value + (n : Binary64).value) =
    nearestBinary64 ((m + n : ℤ) : ℚ)
  rw [value_intCast hm, value_intCast hn, Int.cast_add]

/-- A small integer is its own integer part. -/
theorem trunc_intCast {n : ℤ} (h : |n| ≤ 2 ^ 53) : (n : Binary64).trunc = n := by
  rw [trunc, value_intCast h, Int.floor_intCast, Int.ceil_intCast, ite_self]

end Binary64

end Steve.Library
