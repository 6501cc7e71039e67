import Mathlib.Data.BitVec
import Mathlib.Data.List.GetD

/-!
# Little-endian words and exclusive-or patterns on byte strings

A byte string read as little-endian words, with one mask folded into every word, is the
same string with a periodic byte pattern folded in. Patterns act on byte strings of any
length: folding in two patterns is folding in their exclusive or, so the order of folds is
irrelevant and folding one in twice undoes it.
-/

namespace Steve.Library

/-- An eight-bit byte. -/
abbrev Byte := BitVec 8

/-- The `k`-th byte of a word, least significant first. -/
def wordByte {w : ℕ} (word : BitVec w) (k : ℕ) : Byte := word.extractLsb' (8 * k) 8

/-- The eight bytes of a 64-bit word, least significant first. -/
def wordBytes (word : BitVec 64) : List Byte := (List.range 8).map (wordByte word)

/-- The 64-bit word with the given bytes, least significant first. -/
def ofBytes : List Byte → BitVec 64
  | [] => 0#64
  | byte :: rest => ofBytes rest <<< 8 ||| byte.setWidth 64

/-- Each bit of a word built from bytes is a bit of one byte. -/
theorem getLsbD_ofBytes (bytes : List Byte) (i : ℕ) (hi : i < 64) :
    (ofBytes bytes).getLsbD i = (bytes.getD (i / 8) 0#8).getLsbD (i % 8) := by
  induction bytes generalizing i with
  | nil => simp [ofBytes]
  | cons byte rest ih =>
    simp only [ofBytes, BitVec.getLsbD_or, BitVec.getLsbD_shiftLeft, BitVec.getLsbD_setWidth, hi,
      decide_true, Bool.true_and]
    by_cases hlow : i < 8
    · have hdiv : i / 8 = 0 := by omega
      have hmod : i % 8 = i := by omega
      simp [hlow, hdiv, hmod]
    · have hdiv : i / 8 = (i - 8) / 8 + 1 := by omega
      have hmod : i % 8 = (i - 8) % 8 := by omega
      rw [ih (i - 8) (by omega), hdiv, hmod, List.getD_cons_succ,
        BitVec.getLsbD_of_ge byte i (by omega)]
      simp [hlow]

/-- Splitting a word built from bytes gives the bytes back. -/
theorem wordByte_ofBytes (bytes : List Byte) (k : ℕ) (hk : k < 8) :
    wordByte (ofBytes bytes) k = bytes.getD k 0#8 := by
  apply BitVec.eq_of_getLsbD_eq
  intro i hi
  have hdiv : (8 * k + i) / 8 = k := by omega
  have hmod : (8 * k + i) % 8 = i := by omega
  rw [wordByte, BitVec.getLsbD_extractLsb', getLsbD_ofBytes _ _ (by omega), hdiv, hmod]
  simp [hi]

/-- Exclusive or acts on each byte of a word. -/
theorem wordByte_xor {w : ℕ} (left right : BitVec w) (k : ℕ) :
    wordByte (left ^^^ right) k = wordByte left k ^^^ wordByte right k :=
  BitVec.extractLsb'_xor

/-- A word is determined by its eight bytes. -/
theorem wordByte_injective {left right : BitVec 64}
    (h : ∀ k < 8, wordByte left k = wordByte right k) : left = right := by
  apply BitVec.eq_of_getLsbD_eq
  intro i hi
  have hbyte := congrArg (fun byte => byte.getLsbD (i % 8)) (h (i / 8) (by omega))
  simpa [wordByte, BitVec.getLsbD_extractLsb', Nat.mod_lt, Nat.div_add_mod] using hbyte

/-- Fold a mask into the first `count` words of a byte string, in place. -/
def xorWords (mask : BitVec 64) : ℕ → List Byte → List Byte
  | 0, bytes => bytes
  | count + 1, bytes =>
    wordBytes (ofBytes (bytes.take 8) ^^^ mask) ++ xorWords mask count (bytes.drop 8)

/-- Fold a byte pattern into a byte string. -/
def xorPattern (pattern : ℕ → Byte) (bytes : List Byte) : List Byte :=
  bytes.mapIdx fun j byte => byte ^^^ pattern j

/-- The byte pattern of a mask repeated over the first `count` words. -/
def maskPattern (mask : BitVec 64) (count : ℕ) (j : ℕ) : Byte :=
  if j < 8 * count then wordByte mask (j % 8) else 0#8

/-- The pattern of no words is zero. -/
theorem maskPattern_zero_words (mask : BitVec 64) : maskPattern mask 0 = fun _ => 0#8 := by
  funext j
  exact if_neg (Nat.not_lt_zero j)

@[simp] theorem xorPattern_length (pattern : ℕ → Byte) (bytes : List Byte) :
    (xorPattern pattern bytes).length = bytes.length := by
  simp [xorPattern]

/-- Folding in two patterns folds in their exclusive or. -/
theorem xorPattern_xorPattern (first second : ℕ → Byte) (bytes : List Byte) :
    xorPattern second (xorPattern first bytes) =
      xorPattern (fun j => first j ^^^ second j) bytes := by
  simp only [xorPattern, List.mapIdx_mapIdx, Function.comp_def, BitVec.xor_assoc]

/-- The zero pattern changes nothing. -/
theorem xorPattern_zero (bytes : List Byte) : xorPattern (fun _ => 0#8) bytes = bytes := by
  apply List.ext_getElem <;> simp [xorPattern]

/-- A byte where the pattern is zero stays. -/
theorem getElem?_xorPattern_of_eq_zero {pattern : ℕ → Byte} {j : ℕ} (h : pattern j = 0#8)
    (bytes : List Byte) : (xorPattern pattern bytes)[j]? = bytes[j]? := by
  rw [xorPattern, List.getElem?_mapIdx, h]
  simp

/-- Folding in a pattern twice undoes it. -/
theorem xorPattern_self (pattern : ℕ → Byte) (bytes : List Byte) :
    xorPattern pattern (xorPattern pattern bytes) = bytes := by
  simp only [xorPattern_xorPattern, BitVec.xor_self, xorPattern_zero]

/-- One word's bytes, masked, are its bytes with the mask's bytes folded in. -/
theorem wordBytes_ofBytes_xor (bytes : List Byte) (mask : BitVec 64) (h : bytes.length = 8) :
    wordBytes (ofBytes bytes ^^^ mask) = xorPattern (wordByte mask) bytes := by
  apply List.ext_getElem
  · simp [wordBytes, h]
  · intro k hk _
    have hk8 : k < 8 := by simpa [wordBytes] using hk
    simp only [wordBytes, xorPattern, List.getElem_map, List.getElem_range, List.getElem_mapIdx,
      wordByte_xor, wordByte_ofBytes bytes k hk8]
    rw [List.getD_eq_getElem bytes 0#8 (by omega)]

/-- Masking the leading words folds in the mask's periodic pattern. -/
theorem xorWords_eq_xorPattern (mask : BitVec 64) (count : ℕ) (bytes : List Byte)
    (h : 8 * count ≤ bytes.length) :
    xorWords mask count bytes = xorPattern (maskPattern mask count) bytes := by
  induction count generalizing bytes with
  | zero =>
    rw [xorWords, maskPattern_zero_words, xorPattern_zero]
  | succ count ih =>
    have htake : (bytes.take 8).length = 8 := by
      rw [List.length_take]
      omega
    rw [xorWords, wordBytes_ofBytes_xor _ _ htake, ih (bytes.drop 8) (by simp; omega)]
    conv_rhs => rw [← List.take_append_drop 8 bytes, xorPattern, List.mapIdx_append, htake]
    congr 1
    · apply List.ext_getElem
      · simp [xorPattern]
      · intro j hj _
        have hj8 : j < 8 := by
          rw [xorPattern_length, htake] at hj
          exact hj
        have hin : j < 8 * (count + 1) := by omega
        simp only [xorPattern, List.getElem_mapIdx, maskPattern, if_pos hin, Nat.mod_eq_of_lt hj8]
    · have hshift (j : ℕ) : maskPattern mask (count + 1) (j + 8) = maskPattern mask count j := by
        have hiff : j + 8 < 8 * (count + 1) ↔ j < 8 * count := by omega
        simp only [maskPattern, hiff, Nat.add_mod_right]
      simp only [xorPattern, hshift]

/-- The patterns of two masks over the same words fold to that of their exclusive or. -/
theorem maskPattern_xor (left right : BitVec 64) (count j : ℕ) :
    maskPattern left count j ^^^ maskPattern right count j =
      maskPattern (left ^^^ right) count j := by
  unfold maskPattern
  split
  · rw [wordByte_xor]
  · exact BitVec.xor_self

@[simp] theorem xorWords_length (mask : BitVec 64) (count : ℕ) (bytes : List Byte)
    (h : 8 * count ≤ bytes.length) : (xorWords mask count bytes).length = bytes.length := by
  rw [xorWords_eq_xorPattern mask count bytes h, xorPattern_length]

/-- The `k`-th word of a byte string, least significant byte first. -/
def wordAt (bytes : List Byte) (k : ℕ) : BitVec 64 := ofBytes ((bytes.drop (8 * k)).take 8)

/-- The number of whole words of a byte string that differ in another one. -/
def changedWords (before after : List Byte) : ℕ :=
  (List.range (before.length / 8)).countP fun k => decide (wordAt before k ≠ wordAt after k)

/-- The bytes of a word are the string's at its place. -/
theorem wordByte_wordAt (bytes : List Byte) (k j : ℕ) (hj : j < 8) :
    wordByte (wordAt bytes k) j = bytes.getD (8 * k + j) 0#8 := by
  rw [wordAt, wordByte_ofBytes _ _ hj, List.getD_eq_getElem?_getD, List.getD_eq_getElem?_getD,
    List.getElem?_take_of_lt hj, List.getElem?_drop]

/-- A folded pattern reaches every byte of the string. -/
theorem getD_xorPattern (pattern : ℕ → Byte) (bytes : List Byte) (j : ℕ) (hj : j < bytes.length) :
    (xorPattern pattern bytes).getD j 0#8 = bytes.getD j 0#8 ^^^ pattern j := by
  rw [List.getD_eq_getElem _ _ (by simpa using hj), List.getD_eq_getElem _ _ hj]
  simp only [xorPattern, List.getElem_mapIdx]

/-- Folding a mask into the leading words changes those and no others. -/
theorem wordAt_maskPattern (mask : BitVec 64) (count : ℕ) (bytes : List Byte) (k : ℕ)
    (hk : 8 * (k + 1) ≤ bytes.length) :
    wordAt (xorPattern (maskPattern mask count) bytes) k =
      if k < count then wordAt bytes k ^^^ mask else wordAt bytes k := by
  apply wordByte_injective
  intro j hj
  have hmod : (8 * k + j) % 8 = j := by omega
  rw [wordByte_wordAt _ _ _ hj, getD_xorPattern _ _ _ (by omega), maskPattern, hmod]
  split
  · have hin : k < count := by omega
    rw [if_pos hin, wordByte_xor, wordByte_wordAt _ _ _ hj]
  · have hout : ¬ k < count := by omega
    rw [if_neg hout, BitVec.xor_zero, wordByte_wordAt _ _ _ hj]

/-- A folded mask changes the words it is folded into, unless it is zero. -/
theorem wordAt_ne_maskPattern_iff (mask : BitVec 64) (count : ℕ) (bytes : List Byte) (k : ℕ)
    (hk : 8 * (k + 1) ≤ bytes.length) :
    wordAt bytes k ≠ wordAt (xorPattern (maskPattern mask count) bytes) k ↔
      k < count ∧ mask ≠ 0#64 := by
  have hsame : wordAt bytes k = wordAt bytes k ^^^ mask ↔ mask = 0#64 := by
    have hinj := BitVec.xor_right_inj (x := 0#64) (y := mask) (wordAt bytes k)
    rwa [BitVec.xor_zero, eq_comm (a := 0#64)] at hinj
  rw [wordAt_maskPattern _ _ _ _ hk]
  by_cases hlt : k < count
  · simp [hlt, hsame]
  · simp [hlt]

/-- A folded mask changes as many words as it is folded into, unless it is zero. -/
theorem changedWords_maskPattern (mask : BitVec 64) (count : ℕ) (bytes : List Byte)
    (h : 8 * count ≤ bytes.length) :
    changedWords bytes (xorPattern (maskPattern mask count) bytes) =
      if mask = 0#64 then 0 else count := by
  have hchanged : ∀ k ∈ List.range (bytes.length / 8),
      decide (wordAt bytes k ≠ wordAt (xorPattern (maskPattern mask count) bytes) k) = true ↔
        decide (k < count ∧ mask ≠ 0#64) = true := by
    intro k hk
    have hin : 8 * (k + 1) ≤ bytes.length := by
      have hlt := List.mem_range.mp hk
      omega
    rw [decide_eq_true_iff, decide_eq_true_iff, wordAt_ne_maskPattern_iff _ _ _ _ hin]
  rw [changedWords, List.countP_congr hchanged]
  by_cases hmask : mask = 0#64
  · simp [hmask]
  · obtain ⟨rest, hrest⟩ : ∃ rest, bytes.length / 8 = count + rest :=
      Nat.exists_eq_add_of_le (by omega)
    rw [if_neg hmask, hrest, List.range_add, List.countP_append, List.countP_map,
      List.countP_eq_length.mpr, List.countP_eq_zero.mpr, List.length_range, Nat.add_zero]
    · intro k _
      simp
    · intro k hk
      simpa [hmask] using List.mem_range.mp hk

/-- A pattern moved to a later byte, which leaves the bytes before it. -/
def patternFrom (start : ℕ) (pattern : ℕ → Byte) (j : ℕ) : Byte :=
  if start ≤ j then pattern (j - start) else 0#8

/-- A moved pattern of words is zero before and after them. -/
theorem patternFrom_maskPattern_outside {start count j : ℕ} (mask : BitVec 64)
    (h : j < start ∨ start + 8 * count ≤ j) : patternFrom start (maskPattern mask count) j = 0#8 := by
  rw [patternFrom]
  split
  · exact if_neg (by omega)
  · rfl

/-- Folding a pattern into the end of a string folds in the moved pattern. -/
theorem xorPattern_patternFrom {start : ℕ} (pattern : ℕ → Byte) {bytes : List Byte}
    (h : start ≤ bytes.length) :
    bytes.take start ++ xorPattern pattern (bytes.drop start) =
      xorPattern (patternFrom start pattern) bytes := by
  have htake : (bytes.take start).length = start := List.length_take_of_le h
  conv_rhs => rw [← List.take_append_drop start bytes, xorPattern, List.mapIdx_append, htake]
  congr 1
  · apply List.ext_getElem
    · simp
    · intro j hj _
      have hbefore : ¬ start ≤ j := by omega
      simp [patternFrom, hbefore]
  · simp only [xorPattern, patternFrom, Nat.le_add_left, if_true, Nat.add_sub_cancel]

/-- A slice of a string with a moved pattern folded in has the pattern itself folded in. -/
theorem slice_xorPattern {start : ℕ} (pattern : ℕ → Byte) {bytes : List Byte}
    (h : start ≤ bytes.length) (length : ℕ) :
    ((xorPattern (patternFrom start pattern) bytes).drop start).take length =
      xorPattern pattern ((bytes.drop start).take length) := by
  have htake : (bytes.take start).length = start := List.length_take_of_le h
  rw [← xorPattern_patternFrom pattern h, List.drop_append_of_le_length (Nat.le_of_eq htake.symm),
    List.drop_of_length_le (Nat.le_of_eq htake), List.nil_append]
  apply List.ext_getElem
  · simp
  · intro j _ _
    simp [xorPattern]

/-- The exclusive or of several patterns. -/
def patternSum (patterns : List (ℕ → Byte)) (j : ℕ) : Byte :=
  (patterns.map fun pattern => pattern j).foldr (· ^^^ ·) 0#8

/-- The order of patterns is irrelevant to their sum. -/
theorem patternSum_perm {first second : List (ℕ → Byte)} (h : first.Perm second) :
    patternSum first = patternSum second := by
  funext j
  apply (h.map fun pattern => pattern j).foldr_eq'
  intro left _ right _ rest
  rw [← BitVec.xor_assoc, BitVec.xor_comm right left, BitVec.xor_assoc]

end Steve.Library
