import Mathlib.Algebra.Order.Floor.Ring
import Mathlib.Algebra.Order.Floor.Semiring
import Mathlib.Data.List.TakeWhile
import Mathlib.Data.Rat.Floor
import Mathlib.Tactic.Linarith
import Mathlib.Tactic.Ring
import Mathlib.Tactic.FieldSimp
import Mathlib.Tactic.Positivity

/-!
# Decimal numerals

Writing a number in decimal, whole or with a fixed number of places, and reading such a
text back. Fixed places round to the nearest value, a tie going to the even last digit.
Reading accepts a sign, a fraction and a decimal exponent.
-/

namespace Steve.Library

/-- The nearest natural number to a non-negative value, a tie going to the even one. -/
def roundHalfEven (value : ℚ) : ℕ :=
  let below := ⌊value⌋₊
  if value - below < 1 / 2 then below
  else if 1 / 2 < value - below then below + 1
  else below + below % 2

/-- The value at the given number of decimal places. -/
def roundedTo (places : ℕ) (value : ℚ) : ℚ :=
  (if value < 0 then -1 else 1) * (roundHalfEven (|value| * 10 ^ places) / 10 ^ places)

/-- The last decimal digits of a number, leading zeros included. -/
def lastDigits : ℕ → ℕ → List Char
  | 0, _ => []
  | places + 1, n => lastDigits places (n / 10) ++ [(n % 10).digitChar]

/-- The value with the given positive number of places behind the point. -/
def fixedPoint (places : ℕ) (value : ℚ) : List Char :=
  let scaled := roundHalfEven (|value| * 10 ^ places)
  (if value < 0 then ['-'] else []) ++
    (Nat.toDigits 10 (scaled / 10 ^ places) ++ '.' :: lastDigits places scaled)

/-- Read digits with at most one point among them. -/
def readUnsigned (text : List Char) : Option ℚ :=
  let whole := text.takeWhile Char.isDigit
  match text.dropWhile Char.isDigit with
  | [] => if whole = [] then none else some (Nat.ofDigitChars 10 whole 0 : ℕ)
  | point :: fraction =>
    if point = '.' ∧ fraction.all Char.isDigit ∧ whole ++ fraction ≠ [] then
      some ((Nat.ofDigitChars 10 (whole ++ fraction) 0 : ℕ) / 10 ^ fraction.length)
    else none

/-- Read a text behind an optional sign. -/
def readSigned (read : List Char → Option ℚ) (text : List Char) : Option ℚ :=
  if text.head? = some '-' then (read text.tail).map Neg.neg
  else if text.head? = some '+' then read text.tail
  else read text

/-- Read a whole number with an optional sign. -/
def readInteger (text : List Char) : Option ℤ :=
  let unsigned := if text.head? = some '-' ∨ text.head? = some '+' then text.tail else text
  if unsigned ≠ [] ∧ unsigned.all Char.isDigit then
    let magnitude : ℕ := Nat.ofDigitChars 10 unsigned 0
    some (if text.head? = some '-' then -magnitude else magnitude)
  else none

/-- Whether a character separates a numeral from its exponent. -/
def isExponentMark (char : Char) : Bool := char == 'e' || char == 'E'

/-- Read a decimal numeral. -/
def readDecimal (text : List Char) : Option ℚ :=
  let mantissa := readSigned readUnsigned (text.takeWhile (!isExponentMark ·))
  match text.dropWhile (!isExponentMark ·) with
  | [] => mantissa
  | _ :: exponent => do
    let mantissa ← mantissa
    let exponent ← readInteger exponent
    some (mantissa * 10 ^ exponent)

section Rounding

/-- Rounding moves a value by half a unit at most. -/
theorem abs_roundHalfEven_sub_le {value : ℚ} (h : 0 ≤ value) :
    |(roundHalfEven value : ℚ) - value| ≤ 1 / 2 := by
  have hbelow : (⌊value⌋₊ : ℚ) ≤ value := Nat.floor_le h
  have habove : value < ⌊value⌋₊ + 1 := Nat.lt_floor_add_one value
  rw [roundHalfEven, abs_le]
  split
  · constructor <;> linarith
  · split
    · push_cast
      constructor <;> linarith
    · have htie : value = ⌊value⌋₊ + 1 / 2 := by linarith
      -- the tie moves down or up by exactly one half
      obtain heven | hodd := Nat.mod_two_eq_zero_or_one ⌊value⌋₊
      · rw [heven]
        push_cast
        constructor <;> linarith
      · rw [hodd]
        push_cast
        constructor <;> linarith

/-- A value and its decimal places differ by half a unit of the last place at most. -/
theorem abs_roundedTo_sub_le (places : ℕ) (value : ℚ) :
    |roundedTo places value - value| ≤ 1 / 2 / 10 ^ places := by
  have hscale : (0 : ℚ) < 10 ^ places := by positivity
  have hround : |(roundHalfEven (|value| * 10 ^ places) : ℚ) - |value| * 10 ^ places| ≤ 1 / 2 :=
    abs_roundHalfEven_sub_le (by positivity)
  rw [roundedTo]
  generalize (roundHalfEven (|value| * 10 ^ places) : ℚ) = rounded at hround ⊢
  have hmagnitude : |rounded / 10 ^ places - abs value| ≤ 1 / 2 / 10 ^ places := by
    have hcommon : rounded / 10 ^ places - |value| =
        (rounded - |value| * 10 ^ places) / 10 ^ places := by
      rw [sub_div, mul_div_cancel_right₀ _ hscale.ne']
    rw [hcommon, abs_div, abs_of_pos hscale]
    exact div_le_div_of_nonneg_right hround hscale.le
  by_cases hsign : value < 0
  · rw [abs_of_neg hsign] at hmagnitude
    rw [if_pos hsign, ← abs_neg]
    calc |-(-1 * (rounded / 10 ^ places) - value)|
        = |rounded / 10 ^ places - -value| := by ring_nf
      _ ≤ 1 / 2 / 10 ^ places := hmagnitude
  · rw [abs_of_nonneg (not_lt.mp hsign)] at hmagnitude
    rw [if_neg hsign, one_mul]
    exact hmagnitude

end Rounding

section Digits

/-- As many digits as places. -/
@[simp] theorem lastDigits_length (places n : ℕ) : (lastDigits places n).length = places := by
  induction places generalizing n with
  | zero => rfl
  | succ places ih => simp [lastDigits, ih]

/-- The last digits are digits. -/
theorem isDigit_of_mem_lastDigits {places n : ℕ} {char : Char}
    (h : char ∈ lastDigits places n) : char.isDigit = true := by
  induction places generalizing n with
  | zero => cases h
  | succ places ih =>
    rw [lastDigits, List.mem_append, List.mem_singleton] at h
    obtain h | rfl := h
    · exact ih h
    · rw [Nat.isDigit_digitChar]
      exact decide_eq_true (Nat.mod_lt n (by decide))

/-- Reading on over the last digits completes the number. -/
theorem ofDigitChars_lastDigits (places n : ℕ) :
    Nat.ofDigitChars 10 (lastDigits places n) (n / 10 ^ places) = n := by
  induction places generalizing n with
  | zero => simp [lastDigits]
  | succ places ih =>
    have hdivision : n / 10 ^ (places + 1) = n / 10 / 10 ^ places := by
      rw [Nat.div_div_eq_div_mul, Nat.pow_succ']
    rw [lastDigits, Nat.ofDigitChars_append, hdivision, ih,
      Nat.ofDigitChars_cons_digitChar_of_lt_ten (Nat.mod_lt n (by decide)),
      Nat.ofDigitChars_nil, Nat.div_add_mod]

/-- Digits are read whole. -/
theorem takeWhile_isDigit_toDigits (n : ℕ) (rest : List Char)
    (h : ∀ char ∈ rest.head?, char.isDigit = false) :
    (Nat.toDigits 10 n ++ rest).takeWhile Char.isDigit = Nat.toDigits 10 n ∧
      (Nat.toDigits 10 n ++ rest).dropWhile Char.isDigit = rest := by
  have hdigits : ∀ char ∈ Nat.toDigits 10 n, char.isDigit = true := fun char hmem =>
    Nat.isDigit_of_mem_toDigits (by decide) (by decide) hmem
  rw [List.takeWhile_append_of_pos hdigits, List.dropWhile_append_of_pos hdigits]
  cases rest with
  | nil => simp
  | cons char rest => simp [h char rfl]

end Digits

section Reading

/-- A decimal is read as its digits over the power of its places. -/
theorem readUnsigned_fixed (whole places scaled : ℕ) (h : whole = scaled / 10 ^ places) :
    readUnsigned (Nat.toDigits 10 whole ++ '.' :: lastDigits places scaled) =
      some ((scaled : ℚ) / 10 ^ places) := by
  obtain ⟨htake, hdrop⟩ := takeWhile_isDigit_toDigits whole ('.' :: lastDigits places scaled)
    (by intro char hchar; cases hchar; decide)
  have hall : (lastDigits places scaled).all Char.isDigit = true :=
    List.all_eq_true.mpr fun char hmem => isDigit_of_mem_lastDigits hmem
  have hne : Nat.toDigits 10 whole ++ lastDigits places scaled ≠ [] :=
    List.append_ne_nil_of_left_ne_nil Nat.toDigits_ne_nil _
  simp only [readUnsigned, htake, hdrop]
  rw [if_pos ⟨trivial, hall, hne⟩, Nat.ofDigitChars_append, Nat.ofDigitChars_ten_toDigits, h,
    ofDigitChars_lastDigits, lastDigits_length]

/-- A whole number is read as itself. -/
theorem readUnsigned_toDigits (n : ℕ) : readUnsigned (Nat.toDigits 10 n) = some (n : ℚ) := by
  obtain ⟨htake, hdrop⟩ := takeWhile_isDigit_toDigits n [] (by simp)
  rw [List.append_nil] at htake hdrop
  simp only [readUnsigned, htake, hdrop]
  rw [if_neg Nat.toDigits_ne_nil, Nat.ofDigitChars_ten_toDigits]

/-- A numeral that starts with a digit has no sign. -/
theorem readSigned_of_isDigit (read : List Char → Option ℚ) {text : List Char}
    (h : ∀ char ∈ text.head?, char.isDigit = true) : readSigned read text = read text := by
  have hhead : ∀ sign : Char, sign.isDigit = false → text.head? ≠ some sign := by
    intro sign hsign hhead
    rw [h sign hhead] at hsign
    cases hsign
  rw [readSigned, if_neg (hhead '-' rfl), if_neg (hhead '+' rfl)]

/-- The first digit of a number is a digit. -/
theorem isDigit_head_toDigits (n : ℕ) (rest : List Char) :
    ∀ char ∈ (Nat.toDigits 10 n ++ rest).head?, char.isDigit = true := by
  intro char hchar
  cases hdigits : Nat.toDigits 10 n with
  | nil => exact absurd hdigits Nat.toDigits_ne_nil
  | cons first later =>
    have hmem : first ∈ Nat.toDigits 10 n := hdigits ▸ List.mem_cons_self
    rw [hdigits] at hchar
    cases hchar
    exact Nat.isDigit_of_mem_toDigits (by decide) (by decide) hmem

/-- A numeral without an exponent mark is its mantissa. -/
theorem readDecimal_of_notMem {text : List Char} (h : ∀ char ∈ text, isExponentMark char = false) :
    readDecimal text = readSigned readUnsigned text := by
  have hall : ∀ char ∈ text, (!isExponentMark char) = true := fun char hmem => by
    rw [h char hmem]
    rfl
  simp only [readDecimal]
  rw [List.takeWhile_eq_self_iff.mpr hall, List.dropWhile_eq_nil_iff.mpr hall]

/-- A digit is no exponent mark. -/
theorem isExponentMark_of_isDigit {char : Char} (h : char.isDigit = true) :
    isExponentMark char = false := by
  rw [isExponentMark, Bool.or_eq_false_iff, beq_eq_false_iff_ne, beq_eq_false_iff_ne]
  constructor
  · rintro rfl
    exact absurd h (by decide)
  · rintro rfl
    exact absurd h (by decide)

/-- A character of a value with fixed places is a digit, the point or the sign. -/
theorem mem_fixedPoint {places : ℕ} {value : ℚ} {char : Char}
    (h : char ∈ fixedPoint places value) : char.isDigit = true ∨ char = '.' ∨ char = '-' := by
  simp only [fixedPoint, List.mem_append, List.mem_cons] at h
  obtain hsign | hwhole | rfl | hlast := h
  · split at hsign
    · exact Or.inr (Or.inr (List.mem_singleton.mp hsign))
    · cases hsign
  · exact Or.inl (Nat.isDigit_of_mem_toDigits (by decide) (by decide) hwhole)
  · exact Or.inr (Or.inl rfl)
  · exact Or.inl (isDigit_of_mem_lastDigits hlast)

/-- A whole number reads back. -/
theorem readDecimal_toDigits (n : ℕ) : readDecimal (Nat.toDigits 10 n) = some (n : ℚ) := by
  have hhead := isDigit_head_toDigits n []
  rw [List.append_nil] at hhead
  rw [readDecimal_of_notMem fun char hmem => isExponentMark_of_isDigit
      (Nat.isDigit_of_mem_toDigits (by decide) (by decide) hmem),
    readSigned_of_isDigit readUnsigned hhead, readUnsigned_toDigits]

/-- A value with fixed places reads back as the value at these places. -/
theorem readDecimal_fixedPoint (places : ℕ) (value : ℚ) :
    readDecimal (fixedPoint places value) = some (roundedTo places value) := by
  have hmarks : ∀ char ∈ fixedPoint places value, isExponentMark char = false := by
    intro char hmem
    obtain hdigit | rfl | rfl := mem_fixedPoint hmem
    · exact isExponentMark_of_isDigit hdigit
    · rfl
    · rfl
  rw [readDecimal_of_notMem hmarks]
  have hread := readUnsigned_fixed _ places (roundHalfEven (|value| * 10 ^ places)) rfl
  by_cases hsign : value < 0
  · simp only [fixedPoint, if_pos hsign, readSigned, List.cons_append, List.nil_append,
      List.head?_cons, List.tail_cons, if_true]
    rw [hread, Option.map_some, roundedTo, if_pos hsign, neg_one_mul]
  · simp only [fixedPoint, if_neg hsign, List.nil_append]
    rw [readSigned_of_isDigit _ (isDigit_head_toDigits _ _), hread, roundedTo, if_neg hsign,
      one_mul]

end Reading

end Steve.Library
