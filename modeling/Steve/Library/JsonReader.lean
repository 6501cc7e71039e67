import Steve.Library.Json
import Steve.Library.Decimal
import Mathlib.Tactic.IntervalCases

/-!
# Reading JSON text

A reader for the texts of dynamic values. White space may stand around every token, a
number keeps its literal where it has a fraction or an exponent, and a later entry of an
object replaces an earlier one with its key. Half of a surrogate pair is no character, so
a literal that holds one alone is refused.

The reader takes fuel for its recursion; the length of the text is enough.
-/

namespace Steve.Library

/-- JSON's white space. -/
def isJsonSpace (char : Char) : Bool := char = ' ' || char = '\t' || char = '\n' || char = '\r'

/-- The text from the first token on. -/
def skipSpace (text : List Char) : List Char := text.dropWhile isJsonSpace

/-- The value of a hexadecimal digit. -/
def hexValue (char : Char) : Option ℕ :=
  if '0' ≤ char ∧ char ≤ '9' then some (char.toNat - 48)
  else if 'a' ≤ char ∧ char ≤ 'f' then some (char.toNat - 87)
  else if 'A' ≤ char ∧ char ≤ 'F' then some (char.toNat - 55)
  else none

/-- Four hexadecimal digits. -/
def readHex : List Char → Option (ℕ × List Char)
  | first :: second :: third :: fourth :: rest =>
    match hexValue first, hexValue second, hexValue third, hexValue fourth with
    | some a, some b, some c, some d => some (4096 * a + 256 * b + 16 * c + d, rest)
    | _, _, _, _ => none
  | _ => none

/-- The character of an escape with one letter. -/
def unescape (letter : Char) : Option Char :=
  if letter = '"' ∨ letter = '\\' ∨ letter = '/' then some letter
  else if letter = 'n' then some '\n'
  else if letter = 'r' then some '\r'
  else if letter = 't' then some '\t'
  else if letter = 'b' then some '\x08'
  else if letter = 'f' then some '\x0c'
  else none

/-- The second half of a surrogate pair. -/
def readLowSurrogate (high : ℕ) : List Char → Option (Char × List Char)
  | '\\' :: 'u' :: rest =>
    match readHex rest with
    | some (low, rest) =>
      if 0xdc00 ≤ low ∧ low ≤ 0xdfff then
        some (Char.ofNat (0x10000 + (high - 0xd800) * 1024 + (low - 0xdc00)), rest)
      else none
    | none => none
  | _ => none

/-- What follows the letter of a numbered escape. -/
def readUnicode (text : List Char) : Option (Char × List Char) :=
  match readHex text with
  | none => none
  | some (code, rest) =>
    if 0xd800 ≤ code ∧ code ≤ 0xdbff then readLowSurrogate code rest
    else if 0xdc00 ≤ code ∧ code ≤ 0xdfff then none
    else some (Char.ofNat code, rest)

/-- One character of a string literal, escaped or not. -/
def readChar : List Char → Option (Char × List Char)
  | [] => none
  | char :: rest =>
    if char = '\\' then
      match rest with
      | [] => none
      | letter :: rest =>
        if letter = 'u' then readUnicode rest
        else (unescape letter).map fun char => (char, rest)
    else if char.toNat < 32 then none
    else some (char, rest)

/-- The characters of a string literal up to its closing quote. -/
def readChars : ℕ → List Char → Option (List Char × List Char)
  | 0, _ => none
  | fuel + 1, text =>
    if text.head? = some '"' then some ([], text.tail)
    else
      match readChar text with
      | none => none
      | some (char, rest) =>
        (readChars fuel rest).map fun (chars, rest) => (char :: chars, rest)

/-- A string literal behind its opening quote. -/
def readString (text : List Char) : Option (String × List Char) :=
  (readChars text.length text).map fun (chars, rest) => (String.ofList chars, rest)

/-- The whole part of a number, without needless zeros. -/
def readWhole (text : List Char) : Option (List Char × List Char) :=
  if text.head? = some '0' then some (['0'], text.tail)
  else if text.takeWhile Char.isDigit = [] then none
  else some (text.takeWhile Char.isDigit, text.dropWhile Char.isDigit)

/-- A point and digits, or nothing. -/
def readFraction (text : List Char) : List Char × List Char :=
  if text.head? = some '.' ∧ text.tail.takeWhile Char.isDigit ≠ [] then
    ('.' :: text.tail.takeWhile Char.isDigit, text.tail.dropWhile Char.isDigit)
  else ([], text)

/-- The sign of an exponent, or nothing. -/
def readSign (text : List Char) : List Char × List Char :=
  if text.head? = some '+' ∨ text.head? = some '-' then (text.take 1, text.tail) else ([], text)

/-- An exponent, or nothing. -/
def readExponent (text : List Char) : List Char × List Char :=
  let (sign, rest) := readSign text.tail
  if (text.head? = some 'e' ∨ text.head? = some 'E') ∧ rest.takeWhile Char.isDigit ≠ [] then
    (text.take 1 ++ sign ++ rest.takeWhile Char.isDigit, rest.dropWhile Char.isDigit)
  else ([], text)

/-- A number: an integer, or a float by its literal. -/
def readNumber (text : List Char) : Option (PyValue × List Char) :=
  let negative := text.head? = some '-'
  match readWhole (if negative then text.tail else text) with
  | none => none
  | some (whole, rest) =>
    let (fraction, rest) := readFraction rest
    let (exponent, rest) := readExponent rest
    if fraction = [] ∧ exponent = [] then
      let magnitude : ℕ := Nat.ofDigitChars 10 whole 0
      some (.int (if negative then -magnitude else magnitude), rest)
    else
      let sign := if negative then ['-'] else []
      some (.float (String.ofList (sign ++ whole ++ fraction ++ exponent)), rest)

/-- The words that stand for a value. -/
def jsonWords : List (String × PyValue) :=
  [("null", .none), ("true", .bool true), ("false", .bool false), ("NaN", .float "NaN"),
    ("Infinity", .float "Infinity"), ("-Infinity", .float "-Infinity")]

/-- One of the words. -/
def readWord (text : List Char) : Option (PyValue × List Char) :=
  jsonWords.findSome? fun (word, value) =>
    (word.toList.isPrefixOf? text).map fun rest => (value, rest)

/-- A number or a word. -/
def readScalar (text : List Char) : Option (PyValue × List Char) :=
  match readNumber text with
  | some read => some read
  | none => readWord text

mutual

/-- One value at the head of a text. -/
def readValue : ℕ → List Char → Option (PyValue × List Char)
  | 0, _ => none
  | _ + 1, [] => none
  | fuel + 1, char :: rest =>
    if char = '"' then (readString rest).map fun (text, rest) => (.str text, rest)
    else if char = '[' then
      let rest := skipSpace rest
      if rest.head? = some ']' then some (.list [], rest.tail)
      else (readItems fuel rest).map fun (items, rest) => (.list items, rest)
    else if char = '\x7b' then
      let rest := skipSpace rest
      if rest.head? = some '\x7d' then some (.dict [], rest.tail)
      else (readEntries fuel rest).map fun (entries, rest) =>
        (.dict (Dict.empty.setAll entries).entries, rest)
    else readScalar (char :: rest)

/-- The items of a list up to its closing bracket. -/
def readItems : ℕ → List Char → Option (List PyValue × List Char)
  | 0, _ => none
  | fuel + 1, text =>
    match readValue fuel text with
    | none => none
    | some (item, rest) =>
      let rest := skipSpace rest
      if rest.head? = some ']' then some ([item], rest.tail)
      else if rest.head? = some ',' then
        (readItems fuel (skipSpace rest.tail)).map fun (items, rest) => (item :: items, rest)
      else none

/-- The entries of an object up to its closing brace. -/
def readEntries : ℕ → List Char → Option (List (String × PyValue) × List Char)
  | 0, _ => none
  | fuel + 1, text =>
    if text.head? = some '"' then
      match readString text.tail with
      | none => none
      | some (key, rest) =>
        let rest := skipSpace rest
        if rest.head? = some ':' then
          match readValue fuel (skipSpace rest.tail) with
          | none => none
          | some (value, rest) =>
            let rest := skipSpace rest
            if rest.head? = some '\x7d' then some ([(key, value)], rest.tail)
            else if rest.head? = some ',' then
              (readEntries fuel (skipSpace rest.tail)).map fun (entries, rest) =>
                ((key, value) :: entries, rest)
            else none
        else none
    else none

end

/-- The digits behind the point of a float's literal. -/
def IsFraction (fraction : List Char) : Prop :=
  fraction = [] ∨ ∃ digits, fraction = '.' :: digits ∧ digits ≠ [] ∧
    ∀ char ∈ digits, char.isDigit = true

/-- The exponent of a float's literal. -/
def IsExponent (exponent : List Char) : Prop :=
  exponent = [] ∨ ∃ mark ∈ ['e', 'E'], ∃ sign ∈ [[], ['+'], ['-']], ∃ digits,
    exponent = mark :: (sign ++ digits) ∧ digits ≠ [] ∧ ∀ char ∈ digits, char.isDigit = true

/-- A text that a float can have: a word, or a number with a fraction or an exponent. -/
def FloatText (text : String) : Prop :=
  text ∈ ["NaN", "Infinity", "-Infinity"] ∨ ∃ sign ∈ [[], ['-']], ∃ (whole : ℕ) (fraction exponent :
    List Char), text.toList = sign ++ (Nat.toDigits 10 whole ++ (fraction ++ exponent)) ∧
      IsFraction fraction ∧ IsExponent exponent ∧ ¬(fraction = [] ∧ exponent = [])

/-- A text that does not go on with a number. -/
def EndsNumber (text : List Char) : Prop :=
  ∀ char ∈ text.head?, char.isDigit = false ∧ char ≠ '.' ∧ char ≠ 'e' ∧ char ≠ 'E'

/-- `json.loads(text)`. -/
def loads (text : String) : Option PyValue :=
  match readValue text.toList.length (skipSpace text.toList) with
  | none => none
  | some (value, rest) => if skipSpace rest = [] then some value else none

section Strings

/-- A digit keeps its value. -/
theorem hexValue_digitChar {digit : ℕ} (h : digit < 16) :
    hexValue digit.digitChar = some digit := by
  interval_cases digit <;> rfl

/-- Four digits are read back. -/
theorem readHex_hexDigits {code : ℕ} (h : code < 0x10000) (rest : List Char) :
    readHex (PyValue.hexDigits code ++ rest) = some (code, rest) := by
  have hfirst : code / 4096 % 16 < 16 := Nat.mod_lt _ (by decide)
  have hsecond : code / 256 % 16 < 16 := Nat.mod_lt _ (by decide)
  have hthird : code / 16 % 16 < 16 := Nat.mod_lt _ (by decide)
  have hfourth : code % 16 < 16 := Nat.mod_lt _ (by decide)
  simp only [PyValue.hexDigits, List.cons_append, List.nil_append, readHex,
    hexValue_digitChar hfirst, hexValue_digitChar hsecond, hexValue_digitChar hthird,
    hexValue_digitChar hfourth]
  congr 2
  omega

/-- A numbered escape is read back. -/
theorem readUnicode_hexDigits {char : Char} (h : char.toNat < 0x10000) (rest : List Char) :
    readUnicode (PyValue.hexDigits char.toNat ++ rest) = some (char, rest) := by
  have hvalid : char.toNat < 0xd800 ∨ 0xdfff < char.toNat ∧ char.toNat < 0x110000 := char.valid
  simp only [readUnicode, readHex_hexDigits h]
  rw [if_neg (by omega), if_neg (by omega), Char.ofNat_toNat]

/-- Two numbered escapes in the ranges of the surrogates are read as one character. -/
theorem readUnicode_surrogates {high low : ℕ} (hhigh : 0xd800 ≤ high ∧ high ≤ 0xdbff)
    (hlow : 0xdc00 ≤ low ∧ low ≤ 0xdfff) (rest : List Char) :
    readUnicode (PyValue.hexDigits high ++
      '\\' :: 'u' :: (PyValue.hexDigits low ++ rest)) =
        some (Char.ofNat (0x10000 + (high - 0xd800) * 1024 + (low - 0xdc00)), rest) := by
  have hhex : high < 0x10000 := by omega
  have hhex' : low < 0x10000 := by omega
  simp only [readUnicode, readHex_hexDigits hhex, if_pos hhigh, readLowSurrogate,
    readHex_hexDigits hhex', if_pos hlow]

/-- Every character is read back from its escape. -/
theorem readChar_escapeChar (char : Char) (rest : List Char) :
    readChar (PyValue.escapeChar char ++ rest) = some (char, rest) := by
  rw [PyValue.escapeChar]
  split_ifs with hquote hslash hnewline hreturn htab hback hfeed hplain hbasic
  · rw [hquote]; rfl
  · rw [hslash]; rfl
  · rw [hnewline]; rfl
  · rw [hreturn]; rfl
  · rw [htab]; rfl
  · rw [hback]; rfl
  · rw [hfeed]; rfl
  · have hprintable : ¬char.toNat < 32 := by omega
    simp only [List.cons_append, List.nil_append, readChar, if_neg hslash, if_neg hprintable]
  · simp only [List.cons_append, readChar, if_true]
    exact readUnicode_hexDigits hbasic rest
  · have hvalid : char.toNat < 0x110000 := by
      have hvalid : char.toNat < 0xd800 ∨ 0xdfff < char.toNat ∧ char.toNat < 0x110000 := char.valid
      omega
    generalize hoffset : char.toNat - 0x10000 = offset
    have hhigh : 0xd800 ≤ 0xd800 + offset / 1024 ∧ 0xd800 + offset / 1024 ≤ 0xdbff := by omega
    have hlow : 0xdc00 ≤ 0xdc00 + offset % 1024 ∧ 0xdc00 + offset % 1024 ≤ 0xdfff := by omega
    have hcode : 0x10000 + (0xd800 + offset / 1024 - 0xd800) * 1024 +
        (0xdc00 + offset % 1024 - 0xdc00) = char.toNat := by omega
    simp only [List.cons_append, List.append_assoc, readChar, if_true]
    rw [readUnicode_surrogates hhigh hlow, hcode, Char.ofNat_toNat]

/-- No escape begins with the closing quote. -/
theorem head_escapeChar_ne (char : Char) (rest : List Char) :
    (PyValue.escapeChar char ++ rest).head? ≠ some '"' := by
  rw [PyValue.escapeChar]
  split_ifs with hquote
  all_goals simp [*]

/-- The characters of a literal are read back. -/
theorem readChars_flatMap (chars rest : List Char) {fuel : ℕ} (h : chars.length < fuel) :
    readChars fuel (chars.flatMap PyValue.escapeChar ++ '"' :: rest) = some (chars, rest) := by
  induction chars generalizing fuel with
  | nil =>
    obtain ⟨fuel, rfl⟩ := Nat.exists_eq_add_one_of_ne_zero (Nat.ne_of_gt h)
    rfl
  | cons char chars ih =>
    obtain ⟨fuel, rfl⟩ := Nat.exists_eq_add_one_of_ne_zero (Nat.ne_of_gt (Nat.zero_lt_of_lt h))
    have hrest : chars.length < fuel := Nat.lt_of_succ_lt_succ h
    rw [List.flatMap_cons, List.append_assoc, readChars, if_neg (head_escapeChar_ne char _)]
    simp only [readChar_escapeChar, ih hrest, Option.map_some]

/-- No escape is empty. -/
theorem length_le_flatMap_escapeChar (chars : List Char) :
    chars.length ≤ (chars.flatMap PyValue.escapeChar).length := by
  induction chars with
  | nil => exact Nat.le_refl 0
  | cons char chars ih =>
    have hescape : 0 < (PyValue.escapeChar char).length := by
      rw [PyValue.escapeChar]
      split_ifs <;> simp
    rw [List.flatMap_cons, List.length_append, List.length_cons]
    omega

/-- A string is read back from its literal. -/
theorem readString_quote (text : String) (rest : List Char) :
    readString (text.toList.flatMap PyValue.escapeChar ++ '"' :: rest) = some (text, rest) := by
  have hfuel := length_le_flatMap_escapeChar text.toList
  rw [readString, readChars_flatMap _ _ (by simp only [List.length_append, List.length_cons]; omega)]
  simp only [Option.map_some, String.ofList_toList]

end Strings

section Numbers

variable {rest : List Char}

/-- Digits are read up to a text that does not begin with one. -/
theorem span_isDigit {digits : List Char} (hdigits : ∀ char ∈ digits, char.isDigit = true)
    (hrest : ∀ char ∈ rest.head?, char.isDigit = false) :
    (digits ++ rest).takeWhile Char.isDigit = digits ∧
      (digits ++ rest).dropWhile Char.isDigit = rest := by
  rw [List.takeWhile_append_of_pos hdigits, List.dropWhile_append_of_pos hdigits]
  cases rest with
  | nil => simp
  | cons char rest => simp [hrest char rfl]

/-- Only zero is written with a leading zero. -/
theorem toDigits_eq_of_head_zero (n : ℕ) (h : (Nat.toDigits 10 n).head? = some '0') :
    Nat.toDigits 10 n = ['0'] := by
  induction n using Nat.strong_induction_on with
  | _ n ih =>
    by_cases hn : n < 10
    · rw [Nat.toDigits_of_lt_base hn] at h ⊢
      rw [Option.some.inj h]
    · rw [Nat.toDigits_of_base_le (by decide) (by omega),
        List.head?_append_of_ne_nil _ Nat.toDigits_ne_nil] at h
      have hquotient := ih (n / 10) (by omega) h
      have hzero : Nat.ofDigitChars 10 (Nat.toDigits 10 (n / 10)) 0 = 0 := by rw [hquotient]; rfl
      rw [Nat.ofDigitChars_ten_toDigits] at hzero
      omega

/-- The whole part of a number is read back. -/
theorem readWhole_toDigits (n : ℕ) (hrest : ∀ char ∈ rest.head?, char.isDigit = false) :
    readWhole (Nat.toDigits 10 n ++ rest) = some (Nat.toDigits 10 n, rest) := by
  have hhead : (Nat.toDigits 10 n ++ rest).head? = (Nat.toDigits 10 n).head? :=
    List.head?_append_of_ne_nil _ Nat.toDigits_ne_nil
  rw [readWhole, hhead]
  split_ifs with hzero hnone
  · rw [toDigits_eq_of_head_zero n hzero]
    rfl
  · rw [(takeWhile_isDigit_toDigits n rest hrest).1] at hnone
    exact absurd hnone Nat.toDigits_ne_nil
  · obtain ⟨htake, hdrop⟩ := takeWhile_isDigit_toDigits n rest hrest
    rw [htake, hdrop]

/-- A fraction is read back. -/
theorem readFraction_append {fraction : List Char} (h : IsFraction fraction)
    (hrest : ∀ char ∈ rest.head?, char.isDigit = false ∧ char ≠ '.') :
    readFraction (fraction ++ rest) = (fraction, rest) := by
  obtain rfl | ⟨digits, rfl, hne, hdigits⟩ := h
  · rw [List.nil_append, readFraction, if_neg]
    rintro ⟨hpoint, -⟩
    exact (hrest '.' hpoint).2 rfl
  · obtain ⟨htake, hdrop⟩ := span_isDigit hdigits fun char hchar => (hrest char hchar).1
    rw [List.cons_append, readFraction, List.tail_cons, htake, hdrop, if_pos ⟨rfl, hne⟩]

/-- The sign of an exponent is read back. -/
theorem readSign_append {sign digits : List Char} (h : sign ∈ [[], ['+'], ['-']])
    (hne : digits ≠ []) (hdigits : ∀ char ∈ digits, char.isDigit = true) :
    readSign (sign ++ (digits ++ rest)) = (sign, digits ++ rest) := by
  simp only [List.mem_cons, List.not_mem_nil, or_false] at h
  obtain rfl | rfl | rfl := h
  · obtain ⟨digit, digits, rfl⟩ := List.exists_cons_of_ne_nil hne
    have hdigit := hdigits digit List.mem_cons_self
    rw [List.nil_append, readSign, if_neg]
    rintro (hsign | hsign)
    all_goals
      cases hsign
      exact absurd hdigit (by decide)
  · rfl
  · rfl

/-- An exponent is read back. -/
theorem readExponent_append {exponent : List Char} (h : IsExponent exponent)
    (hrest : EndsNumber rest) : readExponent (exponent ++ rest) = (exponent, rest) := by
  obtain rfl | ⟨mark, hmark, sign, hsign, digits, rfl, hne, hdigits⟩ := h
  · rw [List.nil_append, readExponent]
    refine if_neg ?_
    rintro ⟨hmark | hmark, -⟩
    · exact (hrest 'e' hmark).2.2.1 rfl
    · exact (hrest 'E' hmark).2.2.2 rfl
  · have hmark' : some mark = some 'e' ∨ some mark = some 'E' := by simpa using hmark
    obtain ⟨htake, hdrop⟩ := span_isDigit hdigits fun char hchar => (hrest char hchar).1
    rw [List.cons_append, List.append_assoc, readExponent, List.tail_cons,
      readSign_append hsign hne hdigits]
    simp only [htake, hdrop, List.head?_cons, List.take_succ_cons, List.take_zero,
      List.cons_append, List.nil_append]
    rw [if_pos ⟨hmark', hne⟩]

/-- The head of a fraction or an exponent is no digit, and neither is what ends a number. -/
theorem head_tail_not_digit {fraction exponent : List Char} (hfraction : IsFraction fraction)
    (hexponent : IsExponent exponent) (hrest : EndsNumber rest) :
    (∀ char ∈ (fraction ++ (exponent ++ rest)).head?, char.isDigit = false) ∧
      ∀ char ∈ (exponent ++ rest).head?, char.isDigit = false ∧ char ≠ '.' := by
  have hlast : ∀ char ∈ (exponent ++ rest).head?, char.isDigit = false ∧ char ≠ '.' := by
    obtain rfl | ⟨mark, hmark, sign, -, digits, rfl, -, -⟩ := hexponent
    · exact fun char hchar => ⟨(hrest char hchar).1, (hrest char hchar).2.1⟩
    · intro char hchar
      rw [List.cons_append] at hchar
      cases hchar
      simp only [List.mem_cons, List.not_mem_nil, or_false] at hmark
      obtain rfl | rfl := hmark <;> decide
  refine ⟨?_, hlast⟩
  obtain rfl | ⟨digits, rfl, -, -⟩ := hfraction
  · exact fun char hchar => (hlast char hchar).1
  · intro char hchar
    rw [List.cons_append] at hchar
    cases hchar
    decide

/-- A number is read back from its parts. -/
theorem readNumber_append {sign fraction exponent : List Char} (hsign : sign ∈ [[], ['-']])
    (whole : ℕ) (hfraction : IsFraction fraction) (hexponent : IsExponent exponent)
    (hrest : EndsNumber rest) :
    readNumber (sign ++ (Nat.toDigits 10 whole ++ (fraction ++ (exponent ++ rest)))) =
      some (if fraction = [] ∧ exponent = [] then
          .int (if sign = ['-'] then -(whole : ℤ) else whole)
        else .float (String.ofList (sign ++ Nat.toDigits 10 whole ++ fraction ++ exponent)),
        rest) := by
  obtain ⟨hdigit, hpoint⟩ := head_tail_not_digit hfraction hexponent hrest
  have hwhole := readWhole_toDigits whole hdigit
  have hparts : readFraction (fraction ++ (exponent ++ rest)) = (fraction, exponent ++ rest) :=
    readFraction_append hfraction hpoint
  simp only [List.mem_cons, List.not_mem_nil, or_false] at hsign
  obtain rfl | rfl := hsign
  · have hpositive : (Nat.toDigits 10 whole ++ (fraction ++ (exponent ++ rest))).head? ≠
        some '-' := by
      intro hminus
      exact absurd (isDigit_head_toDigits whole _ '-' hminus) (by decide)
    simp only [readNumber, List.nil_append, if_neg hpositive, hwhole, hparts,
      readExponent_append hexponent hrest, Nat.ofDigitChars_ten_toDigits]
    split_ifs <;> simp_all
  · simp only [readNumber, List.singleton_append, List.head?_cons, List.tail_cons, if_true, hwhole,
      hparts, readExponent_append hexponent hrest, Nat.ofDigitChars_ten_toDigits]
    split_ifs <;> simp_all

/-- An integer is read back. -/
theorem readScalar_int (value : ℤ) (hrest : EndsNumber rest) :
    readScalar ((toString value).toList ++ rest) = some (.int value, rest) := by
  have hread : ∀ sign ∈ [[], ['-']], ∀ magnitude : ℕ,
      readScalar (sign ++ (Nat.toDigits 10 magnitude ++ rest)) =
        some (.int (if sign = ['-'] then -(magnitude : ℤ) else magnitude), rest) := by
    intro sign hsign magnitude
    have hparts := readNumber_append hsign magnitude (Or.inl rfl) (Or.inl rfl) hrest
    rw [List.nil_append, List.nil_append, if_pos ⟨rfl, rfl⟩] at hparts
    rw [readScalar, hparts]
  rw [Int.toString_eq_repr, Int.repr_eq_if]
  split_ifs with hvalue
  · rw [Nat.toList_repr]
    have hpositive := hread [] (by decide) value.toNat
    rw [if_neg (by decide), Int.toNat_of_nonneg hvalue] at hpositive
    exact hpositive
  · rw [String.toList_append, Nat.toList_repr, List.append_assoc]
    have hsame : -((-value).toNat : ℤ) = value := by omega
    rw [show "-".toList = ['-'] from rfl, hread ['-'] (by decide), if_pos rfl, hsame]

/-- A word is read back. -/
theorem readScalar_word {text : String} {value : PyValue} (h : (text, value) ∈ jsonWords)
    (rest : List Char) : readScalar (text.toList ++ rest) = some (value, rest) := by
  simp only [jsonWords, List.mem_cons, List.not_mem_nil, or_false, Prod.mk.injEq] at h
  obtain ⟨rfl, rfl⟩ | ⟨rfl, rfl⟩ | ⟨rfl, rfl⟩ | ⟨rfl, rfl⟩ | ⟨rfl, rfl⟩ | ⟨rfl, rfl⟩ := h <;> rfl

/-- A float is read back. -/
theorem readScalar_float {text : String} (h : FloatText text) (hrest : EndsNumber rest) :
    readScalar (text.toList ++ rest) = some (.float text, rest) := by
  obtain hword | ⟨sign, hsign, whole, fraction, exponent, htext, hfraction, hexponent, hne⟩ := h
  · have hmem : (text, PyValue.float text) ∈ jsonWords := by
      simp only [List.mem_cons, List.not_mem_nil, or_false] at hword
      obtain rfl | rfl | rfl := hword <;> simp [jsonWords]
    exact readScalar_word hmem rest
  · have hparts := readNumber_append hsign whole hfraction hexponent hrest
    rw [if_neg hne] at hparts
    have hsame : String.ofList (sign ++ Nat.toDigits 10 whole ++ fraction ++ exponent) = text := by
      rw [← String.ofList_toList (s := text), htext]
      simp only [List.append_assoc]
    rw [htext]
    simp only [List.append_assoc]
    rw [readScalar, hparts, hsame]

end Numbers

end Steve.Library
