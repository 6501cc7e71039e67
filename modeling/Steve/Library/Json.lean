import Steve.Library.Dict
import Mathlib.Data.Int.Notation
import Mathlib.Data.Nat.Notation
import Mathlib.Tactic.Basic

/-!
# Dynamic values and their JSON text

The values that a dynamic language can hand to a JSON encoder, and the compact text of
those that have one. An object's text lists its entries in the order of the dictionary;
the first value without a text stops the encoding. Left out are tuples and keys that are not
strings, whose text stands for a list and for a string.

Assigning one key of a dictionary changes its text unless the key already held a value
with the same text, or some other value has no text at all.
-/

namespace Steve.Library

/-- A dynamic value. A float is given by its shortest text, any value that JSON does not
know by the name of its type. -/
inductive PyValue
  | none
  | bool (value : Bool)
  | int (value : ℤ)
  | float (text : String)
  | str (text : String)
  | list (items : List PyValue)
  | dict (entries : List (String × PyValue))
  | object (typeName : String)

namespace PyValue

/-- Four hexadecimal digits. -/
def hexDigits (code : ℕ) : List Char :=
  [Nat.digitChar (code / 4096 % 16), Nat.digitChar (code / 256 % 16),
    Nat.digitChar (code / 16 % 16), Nat.digitChar (code % 16)]

/-- A character in an ASCII string literal; outside the basic plane it takes two surrogates. -/
def escapeChar (char : Char) : List Char :=
  if char = '"' then ['\\', '"']
  else if char = '\\' then ['\\', '\\']
  else if char = '\n' then ['\\', 'n']
  else if char = '\r' then ['\\', 'r']
  else if char = '\t' then ['\\', 't']
  else if char = '\x08' then ['\\', 'b']
  else if char = '\x0c' then ['\\', 'f']
  else if 32 ≤ char.toNat ∧ char.toNat ≤ 126 then [char]
  else if char.toNat < 0x10000 then '\\' :: 'u' :: hexDigits char.toNat
  else
    let offset := char.toNat - 0x10000
    '\\' :: 'u' :: hexDigits (0xd800 + offset / 1024) ++
      '\\' :: 'u' :: hexDigits (0xdc00 + offset % 1024)

/-- The literal of a string. -/
def quote (text : String) : String :=
  "\"" ++ String.ofList (text.toList.flatMap escapeChar) ++ "\""

/-- The complaint about a value without a JSON text. -/
def notSerializable (typeName : String) : String :=
  "Object of type " ++ typeName ++ " is not JSON serializable"

mutual

/-- `json.dumps(value, separators=(",", ":"))`. -/
def dumps : PyValue → Except String String
  | .none => .ok "null"
  | .bool value => .ok (if value then "true" else "false")
  | .int value => .ok (toString value)
  | .float text => .ok text
  | .str text => .ok (quote text)
  | .list items => do
    let parts ← dumpsItems items
    .ok ("[" ++ ",".intercalate parts ++ "]")
  | .dict entries => do
    let parts ← dumpsEntries entries
    .ok ("\x7b" ++ ",".intercalate parts ++ "\x7d")
  | .object typeName => .error (notSerializable typeName)

/-- The texts of the items of a list. -/
def dumpsItems : List PyValue → Except String (List String)
  | [] => .ok []
  | item :: rest => do
    let text ← dumps item
    let later ← dumpsItems rest
    .ok (text :: later)

/-- The texts of the entries of an object. -/
def dumpsEntries : List (String × PyValue) → Except String (List String)
  | [] => .ok []
  | (key, value) :: rest => do
    let text ← dumps value
    let later ← dumpsEntries rest
    .ok ((quote key ++ ":" ++ text) :: later)

end

/-- Whether a value has a JSON text. -/
def Serializable (value : PyValue) : Prop := ∃ text, value.dumps = .ok text

/-- Every string has a JSON text. -/
theorem serializable_str (text : String) : Serializable (.str text) := ⟨quote text, dumps.eq_5 _⟩

/-- Every integer has a JSON text. -/
theorem serializable_int (value : ℤ) : Serializable (.int value) := ⟨toString value, dumps.eq_3 _⟩

end PyValue

/-- Two computations of a text that both fail or give the same text. -/
def SameText {ε ε' : Type*} (first : Except ε String) (second : Except ε' String) : Prop :=
  ∀ text, first = .ok text ↔ second = .ok text

section Texts

variable {ε ε' : Type*} {first : Except ε String} {second : Except ε' String}

/-- Two failures agree. -/
theorem sameText_of_error {e : ε} {e' : ε'} (h : first = .error e) (h' : second = .error e') :
    SameText first second := by
  intro text
  rw [h, h']
  constructor <;> (intro hok; cases hok)

/-- Renaming the failures changes nothing. -/
theorem sameText_mapError_iff {ε'' : Type*} {third : Except ε String} (rename : ε → ε'') :
    SameText (first.mapError rename) (third.mapError rename) ↔ SameText first third := by
  have hrename : ∀ (x : Except ε String) text, x.mapError rename = .ok text ↔ x = .ok text := by
    intro x text
    cases x <;> simp [Except.mapError]
  simp only [SameText, hrename]

/-- Two texts agree when they are one. -/
theorem sameText_of_ok_iff {text text' : String} (h : first = .ok text)
    (h' : second = .ok text') : SameText first second ↔ text = text' := by
  rw [SameText, h, h']
  constructor
  · intro hsame
    exact (Except.ok.inj ((hsame text).mp rfl)).symm
  · rintro rfl text
    rw [Except.ok.injEq, Except.ok.injEq]

/-- A text and a failure do not agree. -/
theorem not_sameText_of_ok_error {text : String} {e' : ε'} (h : first = .ok text)
    (h' : second = .error e') : ¬SameText first second := by
  intro hsame
  have hok := (hsame text).mp h
  rw [h'] at hok
  cases hok

end Texts

section Separators

variable (separator : String)

/-- One part of a joined text is read off the text and the other parts. -/
theorem intercalate_part_inj {part part' : String} (before after : List String) :
    separator.intercalate (before ++ part :: after) =
        separator.intercalate (before ++ part' :: after) ↔ part = part' := by
  refine ⟨fun h => ?_, fun h => by rw [h]⟩
  induction before with
  | nil =>
    cases after with
    | nil => simpa using h
    | cons next later =>
      rw [List.nil_append, List.nil_append, String.intercalate_cons_cons,
        String.intercalate_cons_cons, String.append_left_inj, String.append_left_inj] at h
      exact h
  | cons head before ih =>
    rw [List.cons_append, List.cons_append, String.intercalate_cons_of_ne_nil (by simp),
      String.intercalate_cons_of_ne_nil (by simp), String.append_right_inj] at h
    exact ih h

/-- Another nonempty part makes a joined text longer. -/
theorem intercalate_concat_length {part : String} (hpart : 0 < part.length)
    (parts : List String) :
    (separator.intercalate parts).length < (separator.intercalate (parts ++ [part])).length := by
  cases parts with
  | nil => simpa using hpart
  | cons head rest =>
    rw [String.intercalate_append_of_ne_nil (List.cons_ne_nil head rest) (by simp),
      String.intercalate_singleton, String.length_append, String.length_append]
    omega

end Separators

namespace PyValue

/-- An object's text is made of the texts of its entries. -/
theorem dumps_dict (entries : List (String × PyValue)) :
    dumps (.dict entries) = (dumpsEntries entries).map fun parts =>
      "\x7b" ++ ",".intercalate parts ++ "\x7d" := by
  rw [dumps]
  cases dumpsEntries entries <;> rfl

/-- Entries are encoded one after the other. -/
theorem dumpsEntries_append (before after : List (String × PyValue)) :
    dumpsEntries (before ++ after) = (do
      let first ← dumpsEntries before
      let second ← dumpsEntries after
      .ok (first ++ second)) := by
  induction before with
  | nil =>
    rw [List.nil_append, dumpsEntries]
    cases dumpsEntries after <;> rfl
  | cons entry before ih =>
    obtain ⟨key, value⟩ := entry
    rw [List.cons_append, dumpsEntries, dumpsEntries, ih]
    cases dumps value with
    | error e => rfl
    | ok text =>
      cases dumpsEntries before with
      | error e => rfl
      | ok first => cases dumpsEntries after <;> rfl

/-- Entries have their texts exactly when every value has one. -/
theorem dumpsEntries_ok_iff (entries : List (String × PyValue)) :
    (∃ parts, dumpsEntries entries = .ok parts) ↔ ∀ entry ∈ entries, Serializable entry.2 := by
  induction entries with
  | nil => simp [dumpsEntries]
  | cons entry entries ih =>
    obtain ⟨key, value⟩ := entry
    rw [List.forall_mem_cons, ← ih, dumpsEntries, Serializable]
    cases dumps value with
    | error e => simp [bind, Except.bind]
    | ok text => cases dumpsEntries entries <;> simp [bind, Except.bind]

/-- Entries without their texts hold a value without one. -/
theorem exists_of_dumpsEntries_error {entries : List (String × PyValue)} {e : String}
    (h : dumpsEntries entries = .error e) : ∃ entry ∈ entries, ¬Serializable entry.2 := by
  by_contra hnone
  have hall : ∀ entry ∈ entries, Serializable entry.2 := by
    intro entry hentry
    by_contra hvalue
    exact hnone ⟨entry, hentry, hvalue⟩
  obtain ⟨parts, hparts⟩ := (dumpsEntries_ok_iff entries).mpr hall
  rw [h] at hparts
  cases hparts

/-- Entries with their texts hold only values with one. -/
theorem not_exists_of_dumpsEntries_ok {entries : List (String × PyValue)} {parts : List String}
    (h : dumpsEntries entries = .ok parts) : ¬∃ entry ∈ entries, ¬Serializable entry.2 := by
  rintro ⟨entry, hentry, hvalue⟩
  exact hvalue ((dumpsEntries_ok_iff entries).mp ⟨parts, h⟩ entry hentry)

/-- Replacing one value of an object keeps its text if the two values have one text, or if
another value has none. -/
theorem sameText_replace {key text : String} {old value : PyValue}
    (before after : List (String × PyValue)) (h : value.dumps = .ok text) :
    SameText (dumps (.dict (before ++ (key, value) :: after)))
        (dumps (.dict (before ++ (key, old) :: after))) ↔
      (∃ entry ∈ before ++ after, ¬Serializable entry.2) ∨ old.dumps = .ok text := by
  rw [dumps_dict, dumps_dict, dumpsEntries_append, dumpsEntries_append, dumpsEntries,
    dumpsEntries, h]
  cases hbefore : dumpsEntries before with
  | error e =>
    obtain ⟨entry, hentry, hvalue⟩ := exists_of_dumpsEntries_error hbefore
    exact iff_of_true (sameText_of_error rfl rfl)
      (Or.inl ⟨entry, List.mem_append_left after hentry, hvalue⟩)
  | ok first =>
    cases hafter : dumpsEntries after with
    | error e =>
      obtain ⟨entry, hentry, hvalue⟩ := exists_of_dumpsEntries_error hafter
      refine iff_of_true ?_ (Or.inl ⟨entry, List.mem_append_right before hentry, hvalue⟩)
      cases old.dumps <;> exact sameText_of_error rfl rfl
    | ok second =>
      have hothers : dumpsEntries (before ++ after) = .ok (first ++ second) := by
        rw [dumpsEntries_append, hbefore, hafter]
        rfl
      rw [or_iff_right (not_exists_of_dumpsEntries_ok hothers)]
      cases hold : old.dumps with
      | error e => exact iff_of_false (not_sameText_of_ok_error rfl rfl) (by rintro ⟨⟩)
      | ok oldText =>
        rw [Except.ok.injEq, eq_comm (a := oldText)]
        refine (sameText_of_ok_iff rfl rfl).trans ?_
        rw [String.append_left_inj, String.append_right_inj, intercalate_part_inj,
          String.append_right_inj]

/-- One more entry changes the text of an object, unless another value has no text. -/
theorem sameText_concat {key text : String} {value : PyValue}
    (entries : List (String × PyValue)) (h : value.dumps = .ok text) :
    SameText (dumps (.dict (entries ++ [(key, value)]))) (dumps (.dict entries)) ↔
      ∃ entry ∈ entries, ¬Serializable entry.2 := by
  rw [dumps_dict, dumps_dict, dumpsEntries_append, dumpsEntries, h]
  cases hentries : dumpsEntries entries with
  | error e =>
    exact iff_of_true (sameText_of_error rfl rfl) (exists_of_dumpsEntries_error hentries)
  | ok parts =>
    refine iff_of_false (fun hsame => ?_) (not_exists_of_dumpsEntries_ok hentries)
    have hsame := (sameText_of_ok_iff rfl rfl).mp hsame
    rw [String.append_left_inj, String.append_right_inj] at hsame
    have hpart : 0 < (quote key ++ ":" ++ text).length := by
      rw [String.length_append, String.length_append]
      have hcolon : ":".length = 1 := rfl
      omega
    have hlonger := intercalate_concat_length "," hpart parts
    rw [← hsame] at hlonger
    exact absurd hlonger (Nat.lt_irrefl _)

/-- Assigning a key changes the text of an object, unless the key held a value with the same
text or another value has no text. -/
theorem sameText_set {d : Dict String PyValue} {key text : String} {value : PyValue}
    (h : value.dumps = .ok text) :
    SameText (dumps (.dict (d.set key value).entries)) (dumps (.dict d.entries)) ↔
      (∃ other old, d.get? other = some old ∧ other ≠ key ∧ ¬Serializable old) ∨
        ∃ old, d.get? key = some old ∧ old.dumps = .ok text := by
  cases hkey : d.get? key with
  | none =>
    have hnew := Dict.notMem_keys_of_get?_eq_none hkey
    rw [Dict.entries_set_of_notMem d key value hnew, sameText_concat d.entries h]
    constructor
    · rintro ⟨⟨other, old⟩, hentry, hold⟩
      refine Or.inl ⟨other, old, (d.mem_entries_iff other old).mp hentry, ?_, hold⟩
      rintro rfl
      exact hnew (List.mem_map_of_mem hentry)
    · rintro (⟨other, old, hother, -, hold⟩ | ⟨old, hold, -⟩)
      · exact ⟨(other, old), (d.mem_entries_iff other old).mpr hother, hold⟩
      · cases hold
  | some old =>
    obtain ⟨before, after, hentries, hset⟩ := Dict.entries_set_of_get? hkey value
    rw [hset, hentries, sameText_replace before after h]
    have hothers : (∃ entry ∈ before ++ after, ¬Serializable entry.2) ↔
        ∃ other kept, d.get? other = some kept ∧ other ≠ key ∧ ¬Serializable kept := by
      constructor
      · rintro ⟨⟨other, kept⟩, hentry, hkept⟩
        have hother := (Dict.mem_others_iff hentries other kept).mp hentry
        exact ⟨other, kept, hother.1, hother.2, hkept⟩
      · rintro ⟨other, kept, hother, hne, hkept⟩
        exact ⟨(other, kept), (Dict.mem_others_iff hentries other kept).mpr ⟨hother, hne⟩, hkept⟩
    rw [hothers]
    simp

end PyValue

end Steve.Library
