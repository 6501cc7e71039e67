import Mathlib.Data.Nat.Bitwise

/-!
# The exclusive or of consecutive naturals

Two neighbours of which the lower one is even differ in their last bit only, so they fold to
one. Hence three consecutive naturals fold to a natural next to them, and four cancel when the
first of them is even.
-/

namespace Steve.Library

/-- The exclusive or of the first `count` naturals from `start` on. -/
def consecutiveXor (start : ℕ) : ℕ → ℕ
  | 0 => 0
  | count + 1 => consecutiveXor start count ^^^ (start + count)

/-- Folding more naturals continues from where the first ones end. -/
theorem consecutiveXor_add (start first second : ℕ) :
    consecutiveXor start (first + second) =
      consecutiveXor start first ^^^ consecutiveXor (start + first) second := by
  induction second with
  | zero => exact (Nat.xor_zero _).symm
  | succ second ih =>
    rw [← Nat.add_assoc, consecutiveXor, ih, consecutiveXor, Nat.xor_assoc, Nat.add_assoc]

/-- The naturals folded may also be taken from the other end. -/
theorem consecutiveXor_succ' (start count : ℕ) :
    consecutiveXor start (count + 1) = start ^^^ consecutiveXor (start + 1) count := by
  rw [Nat.add_comm count 1, consecutiveXor_add, consecutiveXor, consecutiveXor, Nat.zero_xor,
    Nat.add_zero]

/-- The fold has no more bits than the naturals folded. -/
theorem consecutiveXor_lt {width start count : ℕ} (h : start + count ≤ 2 ^ width) :
    consecutiveXor start count < 2 ^ width := by
  induction count with
  | zero => exact Nat.two_pow_pos width
  | succ count ih => exact Nat.xor_lt_two_pow (ih (by omega)) (by omega)

/-- An even natural and the next one differ in the last bit. -/
theorem xor_succ_of_even {n : ℕ} (h : Even n) : n ^^^ (n + 1) = 1 := by
  rw [← Nat.xor_one_of_even h, Nat.xor_xor_cancel_left]

/-- A natural folded alone is itself. -/
theorem consecutiveXor_one (start : ℕ) : consecutiveXor start 1 = start := by
  rw [consecutiveXor, consecutiveXor, Nat.zero_xor, Nat.add_zero]

/-- Two neighbours, the lower one even. -/
theorem consecutiveXor_two_of_even {start : ℕ} (h : Even start) : consecutiveXor start 2 = 1 := by
  rw [consecutiveXor_succ', consecutiveXor_one, xor_succ_of_even h]

/-- Two neighbours never cancel. -/
theorem consecutiveXor_two_ne_zero (start : ℕ) : consecutiveXor start 2 ≠ 0 := by
  rw [consecutiveXor_succ', consecutiveXor_one, Nat.xor_ne_zero_iff]
  omega

/-- Three neighbours from an even one on fold to the next natural after them. -/
theorem consecutiveXor_three_of_even {start : ℕ} (h : Even start) :
    consecutiveXor start 3 = start + 3 := by
  rw [consecutiveXor, consecutiveXor_two_of_even h, Nat.xor_comm,
    Nat.xor_one_of_even (h.add even_two)]

/-- From an odd one on they fold to the natural before them. -/
theorem consecutiveXor_three_of_odd {start : ℕ} (h : Odd start) :
    consecutiveXor start 3 = start - 1 := by
  rw [consecutiveXor_succ', consecutiveXor_two_of_even h.add_one, Nat.xor_one_of_odd h]

/-- Three neighbours fold to an odd value exactly when it comes right after them. -/
theorem consecutiveXor_three_eq_iff (start : ℕ) {value : ℕ} (hvalue : Odd value) :
    consecutiveXor start 3 = value ↔ start + 3 = value := by
  cases Nat.even_or_odd start with
  | inl heven => rw [consecutiveXor_three_of_even heven]
  | inr hodd =>
    rw [consecutiveXor_three_of_odd hodd]
    obtain ⟨half, rfl⟩ := hodd
    obtain ⟨other, rfl⟩ := hvalue
    omega

/-- Four neighbours cancel exactly when the first is even. -/
theorem consecutiveXor_four_eq_zero_iff (start : ℕ) :
    consecutiveXor start 4 = 0 ↔ Even start := by
  constructor
  · intro h
    by_contra hodd
    rw [Nat.not_even_iff_odd] at hodd
    rw [consecutiveXor_succ', consecutiveXor_three_of_even hodd.add_one, Nat.xor_eq_zero_iff] at h
    omega
  · intro h
    rw [consecutiveXor, consecutiveXor_three_of_even h, Nat.xor_self]

/-- Naturals from an even one on cancel in fours. -/
theorem consecutiveXor_four_mul {start : ℕ} (h : Even start) (fours rest : ℕ) :
    consecutiveXor start (4 * fours + rest) = consecutiveXor (start + 4 * fours) rest := by
  induction fours generalizing start with
  | zero => rw [Nat.mul_zero, Nat.zero_add, Nat.add_zero]
  | succ fours ih =>
    have hshift : 4 * (fours + 1) + rest = 4 + (4 * fours + rest) := by omega
    have hstart : start + 4 + 4 * fours = start + 4 * (fours + 1) := by omega
    rw [hshift, consecutiveXor_add, (consecutiveXor_four_eq_zero_iff start).mpr h, Nat.zero_xor,
      ih (h.add (by decide)), hstart]

/-- The first naturals fold to zero or one when their number is even. -/
theorem consecutiveXor_of_even {count : ℕ} (h : Even count) :
    consecutiveXor 0 count = count / 2 % 2 := by
  obtain ⟨half, rfl⟩ := h
  have hhalf : half + half = 4 * (half / 2) + 2 * (half % 2) := by omega
  have heven : Even (0 + 4 * (half / 2)) := ⟨2 * (half / 2), by omega⟩
  rw [hhalf, consecutiveXor_four_mul Even.zero]
  rcases Nat.mod_two_eq_zero_or_one half with hrest | hrest
  · rw [hrest, Nat.mul_zero, consecutiveXor]
    omega
  · rw [hrest, Nat.mul_one, consecutiveXor_two_of_even heven]
    omega

/-- They fold to the last of them or the natural after it when their number is odd. -/
theorem consecutiveXor_of_odd {count : ℕ} (h : Odd count) :
    consecutiveXor 0 count = count - 1 + count / 2 % 2 := by
  obtain ⟨half, rfl⟩ := h
  have hcount : 2 * half + 1 = 4 * (half / 2) + (2 * (half % 2) + 1) := by omega
  have heven : Even (0 + 4 * (half / 2)) := ⟨2 * (half / 2), by omega⟩
  rw [hcount, consecutiveXor_four_mul Even.zero]
  rcases Nat.mod_two_eq_zero_or_one half with hrest | hrest
  · rw [hrest, Nat.mul_zero, Nat.zero_add, consecutiveXor_one]
    omega
  · rw [hrest, Nat.mul_one, consecutiveXor_three_of_even heven]
    omega

end Steve.Library
