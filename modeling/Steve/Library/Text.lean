import Mathlib.Data.List.Basic
import Mathlib.Data.List.Count

/-!
# Substrings of character lists

The few text operations of a scripting language that path and address handling needs, on
lists of characters: finding, splitting at, and replacing every occurrence of a
substring. Occurrences are found from left to right and do not overlap.
-/

namespace Steve.Library

/-- Replace every occurrence of a nonempty pattern; `skip` characters are still part of the
occurrence replaced last. -/
def replaceFrom (pattern replacement : List Char) : ℕ → List Char → List Char
  | _, [] => []
  | skip + 1, _ :: rest => replaceFrom pattern replacement skip rest
  | 0, char :: rest =>
    if pattern.isPrefixOf (char :: rest) then
      replacement ++ replaceFrom pattern replacement (pattern.length - 1) rest
    else char :: replaceFrom pattern replacement 0 rest

/-- `text.replace(pattern, replacement)` for a nonempty pattern. -/
def replaceAll (pattern replacement text : List Char) : List Char :=
  replaceFrom pattern replacement 0 text

/-- `text.split(separator)[0]`: the text before the first occurrence, or all of it. -/
def beforeFirst (separator : List Char) : List Char → List Char
  | [] => []
  | char :: rest =>
    if separator.isPrefixOf (char :: rest) then [] else char :: beforeFirst separator rest

/-- `pattern in text` for a nonempty pattern. -/
def containsSubstring (pattern : List Char) : List Char → Bool
  | [] => false
  | char :: rest => pattern.isPrefixOf (char :: rest) || containsSubstring pattern rest

section Occurrences

variable {pattern : List Char}

/-- Characters still to be skipped are dropped. -/
theorem replaceFrom_append (pattern replacement skipped text : List Char) :
    replaceFrom pattern replacement skipped.length (skipped ++ text) =
      replaceAll pattern replacement text := by
  induction skipped with
  | nil => rfl
  | cons char rest ih => exact ih

/-- A leading occurrence is replaced. -/
theorem replaceAll_append_self (h : pattern ≠ []) (replacement text : List Char) :
    replaceAll pattern replacement (pattern ++ text) =
      replacement ++ replaceAll pattern replacement text := by
  cases pattern with
  | nil => exact absurd rfl h
  | cons first tail =>
    have hprefix : (first :: tail).isPrefixOf (first :: (tail ++ text)) = true :=
      List.isPrefixOf_iff_prefix.mpr (List.prefix_append (first :: tail) text)
    rw [List.cons_append, replaceAll, replaceFrom, if_pos hprefix, List.length_cons,
      Nat.add_sub_cancel, replaceFrom_append]

/-- A character that starts no occurrence is kept. -/
theorem replaceAll_cons {char : Char} {text : List Char}
    (h : pattern.isPrefixOf (char :: text) = false) (replacement : List Char) :
    replaceAll pattern replacement (char :: text) =
      char :: replaceAll pattern replacement text := by
  rw [replaceAll, replaceFrom, if_neg (by rw [h]; exact Bool.false_ne_true)]
  rfl

/-- Every text is built from occurrences of a pattern and from characters that start none. -/
theorem occurrence_induction (h : pattern ≠ []) {motive : List Char → Prop} (nil : motive [])
    (occurrence : ∀ text, motive text → motive (pattern ++ text))
    (char : ∀ char text, pattern.isPrefixOf (char :: text) = false → motive text →
      motive (char :: text)) (text : List Char) : motive text := by
  -- strong induction on the length, since an occurrence removes several characters at once
  induction hlength : text.length using Nat.strongRecOn generalizing text with
  | _ length ih =>
    cases text with
    | nil => exact nil
    | cons first rest =>
      cases hprefix : pattern.isPrefixOf (first :: rest) with
      | false => exact char first rest hprefix (ih rest.length (by simp [← hlength]) rest rfl)
      | true =>
        obtain ⟨later, hlater⟩ := List.isPrefixOf_iff_prefix.mp hprefix
        have hpos := List.length_pos_of_ne_nil h
        rw [← hlater]
        apply occurrence
        apply ih later.length _ later rfl
        rw [← hlength, ← hlater, List.length_append]
        omega

/-- Deleting a pattern leaves the number of every character outside it. -/
theorem count_replaceAll (h : pattern ≠ []) {char : Char} (hchar : char ∉ pattern)
    (text : List Char) : (replaceAll pattern [] text).count char = text.count char := by
  induction text using occurrence_induction h with
  | nil => rfl
  | occurrence text ih =>
    rw [replaceAll_append_self h, List.nil_append, ih, List.count_append,
      List.count_eq_zero_of_not_mem hchar, Nat.zero_add]
  | char first text hfirst ih => rw [replaceAll_cons hfirst, List.count_cons, List.count_cons, ih]

/-- Deleting a pattern makes no text longer, and shorter where the pattern occurs. -/
theorem replaceAll_length (h : pattern ≠ []) (text : List Char) :
    (replaceAll pattern [] text).length ≤ text.length ∧
      (containsSubstring pattern text = true →
        (replaceAll pattern [] text).length < text.length) := by
  induction text using occurrence_induction h with
  | nil => exact ⟨Nat.le_refl _, fun hnone => by cases hnone⟩
  | occurrence text ih =>
    have hpos := List.length_pos_of_ne_nil h
    rw [replaceAll_append_self h, List.nil_append, List.length_append]
    exact ⟨by omega, fun _ => by omega⟩
  | char first text hfirst ih =>
    rw [replaceAll_cons hfirst, containsSubstring, hfirst, Bool.false_or, List.length_cons,
      List.length_cons]
    exact ⟨Nat.succ_le_succ ih.1, fun hcontains => Nat.succ_lt_succ (ih.2 hcontains)⟩

/-- A text without the pattern is left as it is. -/
theorem replaceAll_eq_self (replacement : List Char) {text : List Char}
    (hnone : containsSubstring pattern text = false) :
    replaceAll pattern replacement text = text := by
  induction text with
  | nil => rfl
  | cons first rest ih =>
    obtain ⟨hfirst, hrest⟩ := Bool.or_eq_false_iff.mp hnone
    rw [replaceAll_cons hfirst, ih hrest]

/-- Characters other than the pattern's first one are kept in front. -/
theorem replaceAll_append_of_notMem {first : Char} (tail replacement : List Char)
    {front : List Char} (h : first ∉ front) (text : List Char) :
    replaceAll (first :: tail) replacement (front ++ text) =
      front ++ replaceAll (first :: tail) replacement text := by
  induction front with
  | nil => rfl
  | cons char rest ih =>
    rw [List.mem_cons, not_or] at h
    have hprefix : (first :: tail).isPrefixOf (char :: (rest ++ text)) = false := by
      simp [List.isPrefixOf, h.1]
    rw [List.cons_append, replaceAll_cons hprefix, ih h.2, List.cons_append]

end Occurrences

end Steve.Library
