import Steve.Library.JsonReader

/-!
# JSON text is read back

An encoder chooses the white space it puts around brackets, commas and colons. Whatever it
chooses, the text of a value is read back as the value, provided that every float among it
has a literal and that every object has distinct keys. The compact text is the one without
white space: it is a single line.
-/

namespace Steve.Library

/-- The white space of an encoder: inside the brackets of a container whose items have the
given depth, after a comma between such items, and after a colon. -/
structure JsonLayout where
  gap : ℕ → List Char
  comma : ℕ → List Char
  colon : List Char
  isSpace_gap : ∀ depth, ∀ char ∈ gap depth, isJsonSpace char = true
  isSpace_comma : ∀ depth, ∀ char ∈ comma depth, isJsonSpace char = true
  isSpace_colon : ∀ char ∈ colon, isJsonSpace char = true

namespace JsonLayout

/-- No white space at all. -/
def compact : JsonLayout where
  gap _ := []
  comma _ := []
  colon := []
  isSpace_gap _ _ hchar := nomatch hchar
  isSpace_comma _ _ hchar := nomatch hchar
  isSpace_colon _ hchar := nomatch hchar

/-- A new line that is indented by a number of blanks for each level. -/
def newline (width depth : ℕ) : List Char := '\n' :: List.replicate (width * depth) ' '

/-- A new line is white space. -/
theorem isSpace_newline (width depth : ℕ) : ∀ char ∈ newline width depth, isJsonSpace char = true := by
  intro char hchar
  rw [newline, List.mem_cons] at hchar
  obtain rfl | hchar := hchar
  · rfl
  · rw [List.eq_of_mem_replicate hchar]
    rfl

/-- Every item on a line of its own. -/
def indented (width : ℕ) : JsonLayout where
  gap := newline width
  comma := newline width
  colon := [' ']
  isSpace_gap := isSpace_newline width
  isSpace_comma := isSpace_newline width
  isSpace_colon char hchar := by rw [List.mem_singleton.mp hchar]; rfl

/-- The parts of a container with its commas between them. -/
def joined (layout : JsonLayout) (depth : ℕ) (parts : List (List Char)) : List Char :=
  (',' :: layout.comma depth).intercalate parts

/-- A container with its brackets; an empty one has no white space. -/
def wrap (layout : JsonLayout) (depth : ℕ) (opening closing : Char) (parts : List (List Char)) :
    List Char :=
  if parts = [] then [opening, closing]
  else opening :: (layout.gap (depth + 1) ++ (layout.joined (depth + 1) parts ++
    (layout.gap depth ++ [closing])))

end JsonLayout

namespace PyValue

/-- The characters of a string's literal. -/
def quoteChars (text : String) : List Char :=
  '"' :: (text.toList.flatMap escapeChar ++ ['"'])

mutual

/-- The text of a value at a depth. -/
def encode (layout : JsonLayout) (depth : ℕ) : PyValue → Except String (List Char)
  | .none => .ok "null".toList
  | .bool value => .ok (if value then "true" else "false").toList
  | .int value => .ok (toString value).toList
  | .float text => .ok text.toList
  | .str text => .ok (quoteChars text)
  | .list items => do
    let parts ← encodeItems layout (depth + 1) items
    .ok (layout.wrap depth '[' ']' parts)
  | .dict entries => do
    let parts ← encodeEntries layout (depth + 1) entries
    .ok (layout.wrap depth '\x7b' '\x7d' parts)
  | .object typeName => .error (notSerializable typeName)

/-- The texts of the items of a list. -/
def encodeItems (layout : JsonLayout) (depth : ℕ) :
    List PyValue → Except String (List (List Char))
  | [] => .ok []
  | item :: rest => do
    let text ← encode layout depth item
    let later ← encodeItems layout depth rest
    .ok (text :: later)

/-- The texts of the entries of an object. -/
def encodeEntries (layout : JsonLayout) (depth : ℕ) :
    List (String × PyValue) → Except String (List (List Char))
  | [] => .ok []
  | (key, value) :: rest => do
    let text ← encode layout depth value
    let later ← encodeEntries layout depth rest
    .ok ((quoteChars key ++ ':' :: (layout.colon ++ text)) :: later)

end

/-- `json.dumps(value, indent=width)`. -/
def dumpsIndented (width : ℕ) (value : PyValue) : Except String String :=
  (encode (.indented width) 0 value).map String.ofList

mutual

/-- A value whose floats have a literal and whose objects have distinct keys. -/
def WellFormed : PyValue → Prop
  | .float text => FloatText text
  | .list items => WellFormedItems items
  | .dict entries => (entries.map Prod.fst).Nodup ∧ WellFormedEntries entries
  | _ => True

/-- Items that are well formed. -/
def WellFormedItems : List PyValue → Prop
  | [] => True
  | item :: rest => WellFormed item ∧ WellFormedItems rest

/-- Entries whose values are well formed. -/
def WellFormedEntries : List (String × PyValue) → Prop
  | [] => True
  | (_, value) :: rest => WellFormed value ∧ WellFormedEntries rest

end

mutual

/-- A value that holds no object of an unknown type. -/
def Encodable : PyValue → Prop
  | .list items => EncodableItems items
  | .dict entries => EncodableEntries entries
  | .object _ => False
  | _ => True

/-- Items that are encodable. -/
def EncodableItems : List PyValue → Prop
  | [] => True
  | item :: rest => Encodable item ∧ EncodableItems rest

/-- Entries whose values are encodable. -/
def EncodableEntries : List (String × PyValue) → Prop
  | [] => True
  | (_, value) :: rest => Encodable value ∧ EncodableEntries rest

end

/-- Items are encodable when each of them is. -/
theorem encodableItems_iff (items : List PyValue) :
    EncodableItems items ↔ ∀ item ∈ items, item.Encodable := by
  induction items with
  | nil => simp [EncodableItems]
  | cons item items ih => rw [EncodableItems, ih, List.forall_mem_cons]

/-- Entries are well formed when all their values are. -/
theorem wellFormedEntries_iff (entries : List (String × PyValue)) :
    WellFormedEntries entries ↔ ∀ entry ∈ entries, entry.2.WellFormed := by
  induction entries with
  | nil => simp [WellFormedEntries]
  | cons entry entries ih => rw [WellFormedEntries, ih, List.forall_mem_cons]

/-- Items are well formed when each of them is. -/
theorem wellFormedItems_iff (items : List PyValue) :
    WellFormedItems items ↔ ∀ item ∈ items, item.WellFormed := by
  induction items with
  | nil => simp [WellFormedItems]
  | cons item items ih => rw [WellFormedItems, ih, List.forall_mem_cons]

end PyValue

namespace PyValue

section Inversion

variable {layout : JsonLayout} {depth : ℕ}

/-- A computation that succeeds went through its first step. -/
theorem ok_of_bind {ε α β : Type} {first : Except ε α} {next : α → Except ε β} {result : β}
    (h : first >>= next = .ok result) : ∃ value, first = .ok value ∧ next value = .ok result := by
  cases first with
  | error e => cases h
  | ok value => exact ⟨value, rfl, h⟩

/-- The text of a list wraps the texts of its items. -/
theorem of_encode_list {items : List PyValue} {text : List Char}
    (h : encode layout depth (.list items) = .ok text) :
    ∃ parts, encodeItems layout (depth + 1) items = .ok parts ∧
      text = layout.wrap depth '[' ']' parts := by
  rw [encode] at h
  obtain ⟨parts, hparts, htext⟩ := ok_of_bind h
  exact ⟨parts, hparts, (Except.ok.inj htext).symm⟩

/-- The text of an object wraps the texts of its entries. -/
theorem of_encode_dict {entries : List (String × PyValue)} {text : List Char}
    (h : encode layout depth (.dict entries) = .ok text) :
    ∃ parts, encodeEntries layout (depth + 1) entries = .ok parts ∧
      text = layout.wrap depth '\x7b' '\x7d' parts := by
  rw [encode] at h
  obtain ⟨parts, hparts, htext⟩ := ok_of_bind h
  exact ⟨parts, hparts, (Except.ok.inj htext).symm⟩

/-- The texts of items are those of the first and of the others. -/
theorem of_encodeItems_cons {item : PyValue} {items : List PyValue} {parts : List (List Char)}
    (h : encodeItems layout depth (item :: items) = .ok parts) :
    ∃ text later, encode layout depth item = .ok text ∧
      encodeItems layout depth items = .ok later ∧ parts = text :: later := by
  rw [encodeItems] at h
  obtain ⟨text, htext, h⟩ := ok_of_bind h
  obtain ⟨later, hlater, h⟩ := ok_of_bind h
  exact ⟨text, later, htext, hlater, (Except.ok.inj h).symm⟩

/-- The texts of entries are those of the first and of the others. -/
theorem of_encodeEntries_cons {key : String} {value : PyValue}
    {entries : List (String × PyValue)} {parts : List (List Char)}
    (h : encodeEntries layout depth ((key, value) :: entries) = .ok parts) :
    ∃ text later, encode layout depth value = .ok text ∧
      encodeEntries layout depth entries = .ok later ∧
        parts = (quoteChars key ++ ':' :: (layout.colon ++ text)) :: later := by
  rw [encodeEntries] at h
  obtain ⟨text, htext, h⟩ := ok_of_bind h
  obtain ⟨later, hlater, h⟩ := ok_of_bind h
  exact ⟨text, later, htext, hlater, (Except.ok.inj h).symm⟩

end Inversion

mutual

/-- An encodable value has a text in every layout. -/
theorem exists_encode (layout : JsonLayout) : ∀ (value : PyValue) (depth : ℕ), value.Encodable →
    ∃ text, encode layout depth value = .ok text
  | .none, _, _ => by rw [encode]; exact ⟨_, rfl⟩
  | .bool _, _, _ => by rw [encode]; exact ⟨_, rfl⟩
  | .int _, _, _ => by rw [encode]; exact ⟨_, rfl⟩
  | .float _, _, _ => by rw [encode]; exact ⟨_, rfl⟩
  | .str _, _, _ => by rw [encode]; exact ⟨_, rfl⟩
  | .object _, _, h => by
    rw [Encodable] at h
    exact h.elim
  | .list items, depth, h => by
    rw [Encodable] at h
    obtain ⟨parts, hparts⟩ := exists_encodeItems layout items (depth + 1) h
    rw [encode, hparts]
    exact ⟨_, rfl⟩
  | .dict entries, depth, h => by
    rw [Encodable] at h
    obtain ⟨parts, hparts⟩ := exists_encodeEntries layout entries (depth + 1) h
    rw [encode, hparts]
    exact ⟨_, rfl⟩

/-- So have encodable items. -/
theorem exists_encodeItems (layout : JsonLayout) : ∀ (items : List PyValue) (depth : ℕ),
    EncodableItems items → ∃ parts, encodeItems layout depth items = .ok parts
  | [], _, _ => by rw [encodeItems]; exact ⟨[], rfl⟩
  | item :: items, depth, h => by
    rw [EncodableItems] at h
    obtain ⟨text, htext⟩ := exists_encode layout item depth h.1
    obtain ⟨later, hlater⟩ := exists_encodeItems layout items depth h.2
    rw [encodeItems, htext, hlater]
    exact ⟨_, rfl⟩

/-- So have encodable entries. -/
theorem exists_encodeEntries (layout : JsonLayout) : ∀ (entries : List (String × PyValue))
    (depth : ℕ), EncodableEntries entries → ∃ parts, encodeEntries layout depth entries = .ok parts
  | [], _, _ => by rw [encodeEntries]; exact ⟨[], rfl⟩
  | (key, value) :: entries, depth, h => by
    rw [EncodableEntries] at h
    obtain ⟨text, htext⟩ := exists_encode layout value depth h.1
    obtain ⟨later, hlater⟩ := exists_encodeEntries layout entries depth h.2
    rw [encodeEntries, htext, hlater]
    exact ⟨_, rfl⟩

end

end PyValue

section Compact

/-- Joining without white space is joining by commas. -/
theorem ofList_joined_compact (depth : ℕ) (parts : List (List Char)) :
    String.ofList (JsonLayout.compact.joined depth parts) =
      ",".intercalate (parts.map String.ofList) := by
  apply String.toList_inj.mp
  rw [String.toList_intercalate, String.toList_ofList, List.map_map, JsonLayout.joined]
  have hsame : (String.toList ∘ String.ofList) = id := by
    funext text
    exact String.toList_ofList
  rw [hsame, List.map_id]
  rfl

/-- A container without white space. -/
theorem ofList_wrap_compact (depth : ℕ) (opening closing : Char) (parts : List (List Char)) :
    String.ofList (JsonLayout.compact.wrap depth opening closing parts) =
      String.singleton opening ++ ",".intercalate (parts.map String.ofList) ++
        String.singleton closing := by
  rw [JsonLayout.wrap, ← ofList_joined_compact (depth + 1)]
  apply String.toList_inj.mp
  split_ifs with hparts
  · subst hparts
    simp [JsonLayout.joined]
  · simp [JsonLayout.compact]

/-- The literal of a string, by its characters. -/
theorem ofList_quoteChars (text : String) :
    String.ofList (PyValue.quoteChars text) = PyValue.quote text := by
  apply String.toList_inj.mp
  simp [PyValue.quoteChars, PyValue.quote]

namespace PyValue

mutual

/-- The compact encoding is the one without white space. -/
theorem dumps_eq_encode : ∀ (depth : ℕ) (value : PyValue),
    dumps value = (encode .compact depth value).map String.ofList
  | _, .none => by rw [dumps, encode]; rfl
  | _, .bool value => by cases value <;> (rw [dumps, encode]; rfl)
  | _, .int value => by rw [dumps, encode, Except.map, String.ofList_toList]
  | _, .float text => by rw [dumps, encode, Except.map, String.ofList_toList]
  | _, .str text => by rw [dumps, encode, Except.map, ofList_quoteChars]
  | _, .object typeName => by rw [dumps, encode]; rfl
  | depth, .list items => by
    rw [dumps, encode, dumpsItems_eq_encode (depth + 1) items]
    cases encodeItems .compact (depth + 1) items with
    | error e => rfl
    | ok parts => exact congrArg Except.ok (ofList_wrap_compact depth '[' ']' parts).symm
  | depth, .dict entries => by
    rw [dumps, encode, dumpsEntries_eq_encode (depth + 1) entries]
    cases encodeEntries .compact (depth + 1) entries with
    | error e => rfl
    | ok parts => exact congrArg Except.ok (ofList_wrap_compact depth '\x7b' '\x7d' parts).symm

/-- The same for the items of a list. -/
theorem dumpsItems_eq_encode : ∀ (depth : ℕ) (items : List PyValue),
    dumpsItems items = (encodeItems .compact depth items).map (List.map String.ofList)
  | _, [] => by rw [dumpsItems, encodeItems]; rfl
  | depth, item :: rest => by
    rw [dumpsItems, encodeItems, dumps_eq_encode depth item, dumpsItems_eq_encode depth rest]
    cases encode .compact depth item with
    | error e => rfl
    | ok text => cases encodeItems .compact depth rest <;> rfl

/-- The same for the entries of an object. -/
theorem dumpsEntries_eq_encode : ∀ (depth : ℕ) (entries : List (String × PyValue)),
    dumpsEntries entries = (encodeEntries .compact depth entries).map (List.map String.ofList)
  | _, [] => by rw [dumpsEntries, encodeEntries]; rfl
  | depth, (key, value) :: rest => by
    rw [dumpsEntries, encodeEntries, dumps_eq_encode depth value,
      dumpsEntries_eq_encode depth rest]
    cases encode .compact depth value with
    | error e => rfl
    | ok text =>
      cases encodeEntries .compact depth rest with
      | error e => rfl
      | ok later =>
        have hentry : String.ofList (quoteChars key ++ ':' :: (JsonLayout.compact.colon ++ text)) =
            quote key ++ ":" ++ String.ofList text := by
          rw [← ofList_quoteChars]
          apply String.toList_inj.mp
          simp [JsonLayout.compact]
        exact congrArg (fun part => Except.ok (part :: later.map String.ofList)) hentry.symm

end

end PyValue

end Compact

section Heads

/-- A text that begins like a number or a word. -/
def ScalarHead (text : List Char) : Prop :=
  ∃ char later, text = char :: later ∧
    (char.isDigit = true ∨ char ∈ ['-', 'n', 't', 'f', 'N', 'I'])

/-- A text that begins like a value. -/
def ValueHead (text : List Char) : Prop :=
  ∃ char later, text = char :: later ∧ isJsonSpace char = false ∧ char ≠ ']' ∧ char ≠ '\x7d'

/-- Anything begins the text that follows a sign or nothing with a number. -/
theorem scalarHead_number {sign : List Char} (hsign : sign ∈ [[], ['-']]) (whole : ℕ)
    (later : List Char) : ScalarHead (sign ++ (Nat.toDigits 10 whole ++ later)) := by
  simp only [List.mem_cons, List.not_mem_nil, or_false] at hsign
  obtain rfl | rfl := hsign
  · obtain ⟨digit, digits, hdigits⟩ := List.exists_cons_of_ne_nil
      (Nat.toDigits_ne_nil : Nat.toDigits 10 whole ≠ [])
    have hdigit : digit ∈ Nat.toDigits 10 whole := hdigits ▸ List.mem_cons_self
    refine ⟨digit, digits ++ later, by rw [hdigits]; rfl, Or.inl ?_⟩
    exact Nat.isDigit_of_mem_toDigits (by decide) (by decide) hdigit
  · exact ⟨'-', _, rfl, Or.inr (by decide)⟩

/-- An integer begins like a number. -/
theorem scalarHead_int (value : ℤ) : ScalarHead (toString value).toList := by
  rw [Int.toString_eq_repr, Int.repr_eq_if]
  split_ifs
  · rw [Nat.toList_repr]
    simpa using scalarHead_number (List.mem_cons_self : [] ∈ [[], ['-']]) value.toNat []
  · rw [String.toList_append, Nat.toList_repr]
    exact ⟨'-', _, rfl, Or.inr (by decide)⟩

/-- A float begins like a number or a word. -/
theorem scalarHead_float {text : String} (h : FloatText text) : ScalarHead text.toList := by
  obtain hword | ⟨sign, hsign, whole, fraction, exponent, htext, -⟩ := h
  · simp only [List.mem_cons, List.not_mem_nil, or_false] at hword
    obtain rfl | rfl | rfl := hword
    · exact ⟨'N', _, rfl, Or.inr (by decide)⟩
    · exact ⟨'I', _, rfl, Or.inr (by decide)⟩
    · exact ⟨'-', _, rfl, Or.inr (by decide)⟩
  · rw [htext]
    exact scalarHead_number hsign whole _

/-- A number or a word begins like a value. -/
theorem ScalarHead.valueHead {text : List Char} (h : ScalarHead text) : ValueHead text := by
  obtain ⟨char, later, rfl, hchar⟩ := h
  refine ⟨char, later, rfl, ?_, ?_, ?_⟩
  · cases hspace : isJsonSpace char with
    | false => rfl
    | true =>
      simp only [isJsonSpace, Bool.or_eq_true, decide_eq_true_eq] at hspace
      obtain ((rfl | rfl) | rfl) | rfl := hspace <;> revert hchar <;> decide
  · rintro rfl
    revert hchar
    decide
  · rintro rfl
    revert hchar
    decide

/-- What begins like a number or a word is read as one. -/
theorem readValue_scalar {text : List Char} (h : ScalarHead text) (fuel : ℕ) (rest : List Char) :
    readValue (fuel + 1) (text ++ rest) = readScalar (text ++ rest) := by
  obtain ⟨char, later, rfl, hchar⟩ := h
  have hother : ∀ opening ∈ ['"', '[', '\x7b'], char ≠ opening := by
    rintro opening hopening rfl
    simp only [List.mem_cons, List.not_mem_nil, or_false] at hopening
    obtain rfl | rfl | rfl := hopening <;> revert hchar <;> decide
  rw [List.cons_append, readValue, if_neg (hother '"' (by decide)),
    if_neg (hother '[' (by decide)), if_neg (hother '\x7b' (by decide))]

/-- Every text of a value begins like one. -/
theorem valueHead_encode {layout : JsonLayout} {depth : ℕ} {value : PyValue} {text : List Char}
    (hvalue : value.WellFormed) (h : PyValue.encode layout depth value = .ok text) :
    ValueHead text := by
  cases value with
  | none =>
    rw [PyValue.encode] at h
    cases h
    exact ⟨'n', _, rfl, by decide, by decide, by decide⟩
  | bool value =>
    rw [PyValue.encode] at h
    cases h
    cases value
    · exact ⟨'f', _, rfl, by decide, by decide, by decide⟩
    · exact ⟨'t', _, rfl, by decide, by decide, by decide⟩
  | int value =>
    rw [PyValue.encode] at h
    cases h
    exact (scalarHead_int value).valueHead
  | float literal =>
    rw [PyValue.encode] at h
    cases h
    rw [PyValue.WellFormed] at hvalue
    exact (scalarHead_float hvalue).valueHead
  | str string =>
    rw [PyValue.encode] at h
    cases h
    exact ⟨'"', _, rfl, by decide, by decide, by decide⟩
  | list items =>
    obtain ⟨parts, -, rfl⟩ := PyValue.of_encode_list h
    rw [JsonLayout.wrap]
    split_ifs <;> exact ⟨'[', _, rfl, by decide, by decide, by decide⟩
  | dict entries =>
    obtain ⟨parts, -, rfl⟩ := PyValue.of_encode_dict h
    rw [JsonLayout.wrap]
    split_ifs <;> exact ⟨'\x7b', _, rfl, by decide, by decide, by decide⟩
  | object typeName =>
    rw [PyValue.encode] at h
    cases h

end Heads

section Spaces

variable {gap : List Char} (hgap : ∀ char ∈ gap, isJsonSpace char = true)

include hgap

/-- White space is skipped up to the next token. -/
theorem skipSpace_append {text : List Char} (h : ∀ char ∈ text.head?, isJsonSpace char = false) :
    skipSpace (gap ++ text) = text := by
  rw [skipSpace, List.dropWhile_append_of_pos hgap]
  cases text with
  | nil => rfl
  | cons char text => simp [h char rfl]

/-- White space and a closing bracket end a number. -/
theorem endsNumber_gap (closing : Char) (hclosing : closing ∈ [']', '\x7d', ','])
    (rest : List Char) : EndsNumber (gap ++ closing :: rest) := by
  intro char hchar
  have hcases : isJsonSpace char = true ∨ char ∈ [']', '\x7d', ','] := by
    cases gap with
    | nil =>
      cases hchar
      exact Or.inr hclosing
    | cons space gap =>
      cases hchar
      exact Or.inl (hgap _ List.mem_cons_self)
  obtain hspace | hmem := hcases
  · simp only [isJsonSpace, Bool.or_eq_true, decide_eq_true_eq] at hspace
    obtain ((rfl | rfl) | rfl) | rfl := hspace <;> decide
  · simp only [List.mem_cons, List.not_mem_nil, or_false] at hmem
    obtain rfl | rfl | rfl := hmem <;> decide

end Spaces

section Reading

variable {layout : JsonLayout} {depth fuel : ℕ}

/-- A bracket is no white space. -/
theorem closing_not_space {closing : Char} (hclosing : closing ∈ [']', '\x7d', ','])
    (rest : List Char) : ∀ char ∈ (closing :: rest).head?, isJsonSpace char = false := by
  intro char hchar
  cases hchar
  simp only [List.mem_cons, List.not_mem_nil, or_false] at hclosing
  obtain rfl | rfl | rfl := hclosing <;> rfl

/-- A value's head is no white space. -/
theorem ValueHead.not_space {text : List Char} (h : ValueHead text) (rest : List Char) :
    ∀ char ∈ (text ++ rest).head?, isJsonSpace char = false := by
  obtain ⟨first, later, rfl, hspace, -⟩ := h
  intro char hchar
  cases hchar
  exact hspace

/-- One part is joined without a comma. -/
theorem JsonLayout.joined_singleton (part : List Char) : layout.joined depth [part] = part := by
  rw [JsonLayout.joined, List.intercalate_singleton]

/-- Two parts or more have a comma behind the first. -/
theorem JsonLayout.joined_cons_cons (part next : List Char) (later : List (List Char)) :
    layout.joined depth (part :: next :: later) =
      part ++ ',' :: (layout.comma depth ++ layout.joined depth (next :: later)) := by
  rw [JsonLayout.joined, List.intercalate_cons_cons, List.append_assoc]
  rfl

/-- The last item of a list is read up to the bracket. -/
theorem readItems_last {item : PyValue} {text gap rest : List Char}
    (hgap : ∀ char ∈ gap, isJsonSpace char = true)
    (hitem : readValue fuel text = some (item, gap ++ ']' :: rest)) :
    readItems (fuel + 1) text = some ([item], rest) := by
  have hskip : skipSpace (gap ++ ']' :: rest) = ']' :: rest :=
    skipSpace_append hgap (closing_not_space (by decide) rest)
  simp only [readItems, hitem, hskip, List.head?_cons, List.tail_cons, if_true]

/-- An item before a comma is read, and then the others. -/
theorem readItems_more {item : PyValue} {items : List PyValue} {text gap later rest : List Char}
    (hgap : ∀ char ∈ gap, isJsonSpace char = true)
    (hlater : ∀ char ∈ later.head?, isJsonSpace char = false)
    (hitem : readValue fuel text = some (item, ',' :: (gap ++ later)))
    (hitems : readItems fuel later = some (items, rest)) :
    readItems (fuel + 1) text = some (item :: items, rest) := by
  have hcomma : skipSpace (',' :: (gap ++ later)) = ',' :: (gap ++ later) := rfl
  simp only [readItems, hitem, hcomma, List.head?_cons, List.tail_cons, if_true,
    skipSpace_append hgap hlater, hitems]
  rfl

/-- A key and its value are read up to what follows the value. -/
theorem readEntries_value (key : String) {value : PyValue} {colon text rest : List Char}
    (hcolon : ∀ char ∈ colon, isJsonSpace char = true)
    (htext : ∀ char ∈ text.head?, isJsonSpace char = false)
    (hvalue : readValue fuel text = some (value, rest)) :
    readEntries (fuel + 1) (PyValue.quoteChars key ++ ':' :: (colon ++ text)) =
      if (skipSpace rest).head? = some '\x7d' then some ([(key, value)], (skipSpace rest).tail)
      else if (skipSpace rest).head? = some ',' then
        (readEntries fuel (skipSpace (skipSpace rest).tail)).map fun (entries, rest) =>
          ((key, value) :: entries, rest)
      else none := by
  have hquote : PyValue.quoteChars key ++ ':' :: (colon ++ text) =
      '"' :: (key.toList.flatMap PyValue.escapeChar ++ '"' :: (':' :: (colon ++ text))) := by
    simp [PyValue.quoteChars]
  have hskip : skipSpace (':' :: (colon ++ text)) = ':' :: (colon ++ text) := rfl
  simp only [hquote, readEntries, List.head?_cons, List.tail_cons, if_true, readString_quote, hskip,
    skipSpace_append hcolon htext, hvalue]

/-- The last entry of an object is read up to the brace. -/
theorem readEntries_last (key : String) {value : PyValue} {colon text gap rest : List Char}
    (hcolon : ∀ char ∈ colon, isJsonSpace char = true)
    (htext : ∀ char ∈ text.head?, isJsonSpace char = false)
    (hgap : ∀ char ∈ gap, isJsonSpace char = true)
    (hvalue : readValue fuel text = some (value, gap ++ '\x7d' :: rest)) :
    readEntries (fuel + 1) (PyValue.quoteChars key ++ ':' :: (colon ++ text)) =
      some ([(key, value)], rest) := by
  have hskip : skipSpace (gap ++ '\x7d' :: rest) = '\x7d' :: rest :=
    skipSpace_append hgap (closing_not_space (by decide) rest)
  rw [readEntries_value key hcolon htext hvalue, hskip, List.head?_cons, if_pos rfl, List.tail_cons]

/-- An entry before a comma is read, and then the others. -/
theorem readEntries_more (key : String) {value : PyValue} {entries : List (String × PyValue)}
    {colon text gap later rest : List Char} (hcolon : ∀ char ∈ colon, isJsonSpace char = true)
    (htext : ∀ char ∈ text.head?, isJsonSpace char = false)
    (hgap : ∀ char ∈ gap, isJsonSpace char = true)
    (hlater : ∀ char ∈ later.head?, isJsonSpace char = false)
    (hvalue : readValue fuel text = some (value, ',' :: (gap ++ later)))
    (hentries : readEntries fuel later = some (entries, rest)) :
    readEntries (fuel + 1) (PyValue.quoteChars key ++ ':' :: (colon ++ text)) =
      some ((key, value) :: entries, rest) := by
  have hcomma : skipSpace (',' :: (gap ++ later)) = ',' :: (gap ++ later) := rfl
  rw [readEntries_value key hcolon htext hvalue, hcomma, List.head?_cons, if_neg (by decide),
    if_pos rfl, List.tail_cons, skipSpace_append hgap hlater, hentries]
  rfl

/-- What follows an opening bracket is the items, unless it is the closing one. -/
theorem readValue_list {items : List PyValue} {text gap rest : List Char}
    (hgap : ∀ char ∈ gap, isJsonSpace char = true) (hhead : ValueHead text)
    (hitems : readItems fuel text = some (items, rest)) :
    readValue (fuel + 1) ('[' :: (gap ++ text)) = some (.list items, rest) := by
  have hskip : skipSpace (gap ++ text) = text :=
    skipSpace_append hgap (List.append_nil text ▸ hhead.not_space [])
  have hclosing : text.head? ≠ some ']' := by
    obtain ⟨char, later, rfl, -, hne, -⟩ := hhead
    exact fun h => hne (Option.some.inj h)
  simp only [readValue, Char.reduceEq, if_false, if_true, hskip, if_neg hclosing, hitems]
  rfl

/-- What follows an opening brace is the entries, unless it is the closing one. -/
theorem readValue_dict {entries : List (String × PyValue)} {text gap rest : List Char}
    (hgap : ∀ char ∈ gap, isJsonSpace char = true) (hhead : ValueHead text)
    (hnodup : (entries.map Prod.fst).Nodup)
    (hentries : readEntries fuel text = some (entries, rest)) :
    readValue (fuel + 1) ('\x7b' :: (gap ++ text)) = some (.dict entries, rest) := by
  have hskip : skipSpace (gap ++ text) = text :=
    skipSpace_append hgap (List.append_nil text ▸ hhead.not_space [])
  have hclosing : text.head? ≠ some '\x7d' := by
    obtain ⟨char, later, rfl, -, -, hne⟩ := hhead
    exact fun h => hne (Option.some.inj h)
  have hsame : (Dict.empty.setAll entries).entries = entries :=
    Dict.entries_setAll Dict.empty hnodup fun key _ hkey => nomatch hkey
  simp only [readValue, Char.reduceEq, if_false, if_true, hskip, if_neg hclosing, hentries,
    Option.map_some, hsame]

/-- What is read as a number or a word is read as a value. -/
theorem readValue_of_scalar {value : PyValue} {text rest : List Char} (hhead : ScalarHead text)
    (hread : readScalar (text ++ rest) = some (value, rest)) (hfuel : text.length ≤ fuel) :
    readValue fuel (text ++ rest) = some (value, rest) := by
  cases fuel with
  | zero =>
    obtain ⟨char, later, rfl, -⟩ := hhead
    exact absurd hfuel (Nat.not_succ_le_zero _)
  | succ fuel => rw [readValue_scalar hhead, hread]

/-- The joined parts begin like the first of them. -/
theorem valueHead_joined (layout : JsonLayout) (depth : ℕ) {part : List Char} (h : ValueHead part)
    (later : List (List Char)) (rest : List Char) :
    ValueHead (layout.joined depth (part :: later) ++ rest) := by
  obtain ⟨char, text, rfl, hspace, hbracket, hbrace⟩ := h
  cases later with
  | nil => exact ⟨char, _, by rw [JsonLayout.joined_singleton]; rfl, hspace, hbracket, hbrace⟩
  | cons next later =>
    exact ⟨char, _, by rw [JsonLayout.joined_cons_cons]; rfl, hspace, hbracket, hbrace⟩

/-- An entry begins with a quote. -/
theorem valueHead_entry (key : String) (rest : List Char) :
    ValueHead (PyValue.quoteChars key ++ rest) :=
  ⟨'"', _, rfl, by decide, by decide, by decide⟩

/-- Nothing but a bracket or a comma ends a number either. -/
theorem endsNumber_closing (closing : Char) (hclosing : closing ∈ [']', '\x7d', ','])
    (rest : List Char) : EndsNumber (closing :: rest) :=
  endsNumber_gap (List.forall_mem_nil _) closing hclosing rest

mutual

/-- A value is read back from its text, whatever ends it. -/
theorem readValue_encode : ∀ (value : PyValue) {depth : ℕ} (fuel : ℕ) {text rest : List Char},
    value.WellFormed → PyValue.encode layout depth value = .ok text → EndsNumber rest →
      text.length ≤ fuel → readValue fuel (text ++ rest) = some (value, rest)
  | .none, _, _, _, rest, _, h, _, hfuel => by
    rw [PyValue.encode] at h
    cases h
    exact readValue_of_scalar ⟨'n', _, rfl, Or.inr (by decide)⟩
      (readScalar_word (by simp [jsonWords]) rest) hfuel
  | .bool false, _, _, _, rest, _, h, _, hfuel => by
    rw [PyValue.encode] at h
    cases h
    exact readValue_of_scalar ⟨'f', _, rfl, Or.inr (by decide)⟩
      (readScalar_word (by simp [jsonWords]) rest) hfuel
  | .bool true, _, _, _, rest, _, h, _, hfuel => by
    rw [PyValue.encode] at h
    cases h
    exact readValue_of_scalar ⟨'t', _, rfl, Or.inr (by decide)⟩
      (readScalar_word (by simp [jsonWords]) rest) hfuel
  | .int value, _, _, _, _, _, h, hrest, hfuel => by
    rw [PyValue.encode] at h
    cases h
    exact readValue_of_scalar (scalarHead_int value) (readScalar_int value hrest) hfuel
  | .float literal, _, _, _, _, hvalue, h, hrest, hfuel => by
    rw [PyValue.encode] at h
    cases h
    rw [PyValue.WellFormed] at hvalue
    exact readValue_of_scalar (scalarHead_float hvalue) (readScalar_float hvalue hrest) hfuel
  | .str string, _, 0, _, _, _, h, _, hfuel => by
    rw [PyValue.encode] at h
    cases h
    exact absurd hfuel (Nat.not_succ_le_zero _)
  | .str string, _, fuel + 1, _, rest, _, h, _, _ => by
    rw [PyValue.encode] at h
    cases h
    simp only [PyValue.quoteChars, List.cons_append, List.append_assoc, List.nil_append, readValue,
      if_true, readString_quote, Option.map_some]
  | .object _, _, _, _, _, _, h, _, _ => by
    rw [PyValue.encode] at h
    cases h
  | .list [], depth, fuel, text, rest, _, h, _, hfuel => by
    obtain ⟨parts, hparts, rfl⟩ := PyValue.of_encode_list h
    rw [PyValue.encodeItems, Except.ok.injEq] at hparts
    subst hparts
    obtain ⟨fuel, rfl⟩ := Nat.exists_eq_add_of_le' hfuel
    rfl
  | .list (item :: items), depth, fuel, text, rest, hvalue, h, _, hfuel => by
    obtain ⟨parts, hparts, rfl⟩ := PyValue.of_encode_list h
    obtain ⟨first, later, hfirst, -, rfl⟩ := PyValue.of_encodeItems_cons hparts
    rw [PyValue.WellFormed] at hvalue
    have hitem : item.WellFormed := by
      rw [PyValue.WellFormedItems] at hvalue
      exact hvalue.1
    rw [JsonLayout.wrap, if_neg (List.cons_ne_nil first later)] at hfuel ⊢
    simp only [List.length_cons, List.length_append] at hfuel
    obtain ⟨fuel, rfl⟩ := Nat.exists_eq_add_one_of_ne_zero (n := fuel) (by omega)
    have hitems := readItems_encode (item :: items) fuel rest (List.cons_ne_nil item items) hvalue
      hparts (layout.isSpace_gap depth) (by omega)
    have hhead := valueHead_joined layout (depth + 1) (valueHead_encode hitem hfirst) later
      (layout.gap depth ++ ']' :: rest)
    simpa using readValue_list (layout.isSpace_gap (depth + 1)) hhead hitems
  | .dict [], depth, fuel, text, rest, _, h, _, hfuel => by
    obtain ⟨parts, hparts, rfl⟩ := PyValue.of_encode_dict h
    rw [PyValue.encodeEntries, Except.ok.injEq] at hparts
    subst hparts
    obtain ⟨fuel, rfl⟩ := Nat.exists_eq_add_of_le' hfuel
    rfl
  | .dict ((key, value) :: entries), depth, fuel, text, rest, hvalue, h, _, hfuel => by
    obtain ⟨parts, hparts, rfl⟩ := PyValue.of_encode_dict h
    obtain ⟨first, later, -, -, rfl⟩ := PyValue.of_encodeEntries_cons hparts
    rw [PyValue.WellFormed] at hvalue
    rw [JsonLayout.wrap, if_neg (List.cons_ne_nil _ later)] at hfuel ⊢
    simp only [List.length_cons, List.length_append] at hfuel
    obtain ⟨fuel, rfl⟩ := Nat.exists_eq_add_one_of_ne_zero (n := fuel) (by omega)
    have hentries := readEntries_encode ((key, value) :: entries) fuel rest
      (List.cons_ne_nil _ entries) hvalue.2 hparts (layout.isSpace_gap depth) (by omega)
    have hhead := valueHead_joined layout (depth + 1) (valueHead_entry key (':' :: (layout.colon ++ first)))
      later (layout.gap depth ++ '\x7d' :: rest)
    simpa using readValue_dict (layout.isSpace_gap (depth + 1)) hhead hvalue.1 hentries

/-- Items are read back from their texts, up to the closing bracket. -/
theorem readItems_encode : ∀ (items : List PyValue) {depth : ℕ} (fuel : ℕ)
    {parts : List (List Char)} {gap : List Char} (rest : List Char), items ≠ [] →
      PyValue.WellFormedItems items → PyValue.encodeItems layout depth items = .ok parts →
      (∀ char ∈ gap, isJsonSpace char = true) → (layout.joined depth parts).length < fuel →
        readItems fuel (layout.joined depth parts ++ (gap ++ ']' :: rest)) = some (items, rest)
  | [], _, _, _, _, _, hne, _, _, _, _ => absurd rfl hne
  | _ :: _, _, 0, _, _, _, _, _, _, _, hfuel => absurd hfuel (Nat.not_lt_zero _)
  | [item], depth, fuel + 1, parts, gap, rest, _, hitems, h, hgap, hfuel => by
    obtain ⟨text, later, htext, hlater, rfl⟩ := PyValue.of_encodeItems_cons h
    rw [PyValue.encodeItems, Except.ok.injEq] at hlater
    subst hlater
    rw [PyValue.WellFormedItems] at hitems
    rw [JsonLayout.joined_singleton] at hfuel ⊢
    exact readItems_last hgap (readValue_encode item fuel hitems.1 htext
      (endsNumber_gap hgap ']' (by decide) rest) (Nat.le_of_lt_succ hfuel))
  | item :: next :: items, depth, fuel + 1, parts, gap, rest, _, hitems, h, hgap, hfuel => by
    obtain ⟨text, later, htext, hlater, rfl⟩ := PyValue.of_encodeItems_cons h
    obtain ⟨second, others, hsecond, -, rfl⟩ := PyValue.of_encodeItems_cons hlater
    rw [PyValue.WellFormedItems] at hitems
    have hnext : next.WellFormed := by
      rw [PyValue.WellFormedItems] at hitems
      exact hitems.2.1
    rw [JsonLayout.joined_cons_cons] at hfuel ⊢
    simp only [List.length_append, List.length_cons] at hfuel
    have hothers := readItems_encode (next :: items) fuel rest (List.cons_ne_nil next items)
      hitems.2 hlater hgap (by omega)
    have hhead := valueHead_joined layout depth (valueHead_encode hnext hsecond) others
      (gap ++ ']' :: rest)
    have hitem := readValue_encode item fuel hitems.1 htext
      (endsNumber_closing ',' (by decide) (layout.comma depth ++
        (layout.joined depth (second :: others) ++ (gap ++ ']' :: rest)))) (by omega)
    have hread := readItems_more (layout.isSpace_comma depth)
      (List.append_nil (layout.joined depth (second :: others) ++ (gap ++ ']' :: rest)) ▸
        hhead.not_space []) hitem hothers
    simpa using hread

/-- Entries are read back from their texts, up to the closing brace. -/
theorem readEntries_encode : ∀ (entries : List (String × PyValue)) {depth : ℕ} (fuel : ℕ)
    {parts : List (List Char)} {gap : List Char} (rest : List Char), entries ≠ [] →
      PyValue.WellFormedEntries entries → PyValue.encodeEntries layout depth entries = .ok parts →
      (∀ char ∈ gap, isJsonSpace char = true) → (layout.joined depth parts).length < fuel →
        readEntries fuel (layout.joined depth parts ++ (gap ++ '\x7d' :: rest)) =
          some (entries, rest)
  | [], _, _, _, _, _, hne, _, _, _, _ => absurd rfl hne
  | _ :: _, _, 0, _, _, _, _, _, _, _, hfuel => absurd hfuel (Nat.not_lt_zero _)
  | [(key, value)], depth, fuel + 1, parts, gap, rest, _, hentries, h, hgap, hfuel => by
    obtain ⟨text, later, htext, hlater, rfl⟩ := PyValue.of_encodeEntries_cons h
    rw [PyValue.encodeEntries, Except.ok.injEq] at hlater
    subst hlater
    rw [PyValue.WellFormedEntries] at hentries
    rw [JsonLayout.joined_singleton] at hfuel ⊢
    simp only [List.length_append, List.length_cons] at hfuel
    have hvalue := readValue_encode value fuel hentries.1 htext
      (endsNumber_gap hgap '\x7d' (by decide) rest) (by omega)
    have hhead := (valueHead_encode hentries.1 htext).not_space (gap ++ '\x7d' :: rest)
    have hread := readEntries_last key layout.isSpace_colon hhead hgap hvalue
    simpa using hread
  | (key, value) :: (nextKey, next) :: entries, depth, fuel + 1, parts, gap, rest, _, hentries, h,
      hgap, hfuel => by
    obtain ⟨text, later, htext, hlater, rfl⟩ := PyValue.of_encodeEntries_cons h
    obtain ⟨second, others, -, -, rfl⟩ := PyValue.of_encodeEntries_cons hlater
    rw [PyValue.WellFormedEntries] at hentries
    rw [JsonLayout.joined_cons_cons] at hfuel ⊢
    simp only [List.length_append, List.length_cons] at hfuel
    have hothers := readEntries_encode ((nextKey, next) :: entries) fuel rest
      (List.cons_ne_nil _ entries) hentries.2 hlater hgap (by omega)
    have hhead := valueHead_joined layout depth (valueHead_entry nextKey (':' :: (layout.colon ++
      second))) others (gap ++ '\x7d' :: rest)
    have hvalue := readValue_encode value fuel hentries.1 htext
      (endsNumber_closing ',' (by decide) (layout.comma depth ++ (layout.joined depth
        ((PyValue.quoteChars nextKey ++ ':' :: (layout.colon ++ second)) :: others) ++
          (gap ++ '\x7d' :: rest)))) (by omega)
    have hread := readEntries_more key layout.isSpace_colon
      ((valueHead_encode hentries.1 htext).not_space _) (layout.isSpace_comma depth)
      (List.append_nil (layout.joined depth ((PyValue.quoteChars nextKey ++
        ':' :: (layout.colon ++ second)) :: others) ++ (gap ++ '\x7d' :: rest)) ▸
          hhead.not_space []) hvalue hothers
    simpa using hread

end

/-- A text is read back as the value that it encodes. -/
theorem loads_encode {value : PyValue} {text : List Char} (hvalue : value.WellFormed)
    (h : PyValue.encode layout 0 value = .ok text) : loads (String.ofList text) = some value := by
  have hhead := valueHead_encode hvalue h
  have hskip : skipSpace text = text :=
    skipSpace_append (List.forall_mem_nil _) (List.append_nil text ▸ hhead.not_space [])
  have hread := readValue_encode value text.length hvalue h
    (fun char hchar => nomatch hchar : EndsNumber []) (Nat.le_refl _)
  rw [List.append_nil] at hread
  rw [loads, String.toList_ofList, hskip, hread]
  rfl

/-- Compact text is read back. -/
theorem loads_dumps {value : PyValue} {text : String} (hvalue : value.WellFormed)
    (h : value.dumps = .ok text) : loads text = some value := by
  rw [PyValue.dumps_eq_encode 0] at h
  cases hencode : PyValue.encode .compact 0 value with
  | error e =>
    rw [hencode] at h
    cases h
  | ok chars =>
    rw [hencode] at h
    cases h
    exact loads_encode hvalue hencode

/-- A value has indented text, which is read back. -/
theorem exists_dumpsIndented {value : PyValue} (hvalue : value.WellFormed) (h : value.Encodable)
    (width : ℕ) : ∃ text, value.dumpsIndented width = .ok text ∧ loads text = some value := by
  obtain ⟨chars, hencode⟩ := PyValue.exists_encode (.indented width) value 0 h
  refine ⟨String.ofList chars, ?_, loads_encode hvalue hencode⟩
  rw [PyValue.dumpsIndented, hencode]
  rfl

end Reading

section Printable

/-- The characters from the blank to the tilde. -/
def Printable (char : Char) : Prop := 32 ≤ char.toNat ∧ char.toNat ≤ 126

/-- A text is printable when all its characters are in the range. -/
theorem printable_of_all {text : List Char}
    (h : text.all (fun char => decide (32 ≤ char.toNat) && decide (char.toNat ≤ 126)) = true) :
    ∀ char ∈ text, Printable char := by
  intro char hchar
  simpa [Printable] using List.all_eq_true.mp h char hchar

/-- A digit is printable. -/
theorem printable_of_isDigit {char : Char} (h : char.isDigit = true) : Printable char := by
  simp only [Char.isDigit, Bool.and_eq_true, decide_eq_true_eq] at h
  obtain ⟨hlow, hhigh⟩ := h
  have hlow' : 48 ≤ char.toNat := hlow
  have hhigh' : char.toNat ≤ 57 := hhigh
  exact ⟨by omega, by omega⟩

/-- A hexadecimal digit is printable. -/
theorem printable_digitChar {digit : ℕ} (h : digit < 16) : Printable digit.digitChar := by
  interval_cases digit <;> exact ⟨by decide, by decide⟩

/-- Hexadecimal digits are printable. -/
theorem printable_hexDigits (code : ℕ) : ∀ char ∈ PyValue.hexDigits code, Printable char := by
  intro char hchar
  simp only [PyValue.hexDigits, List.mem_cons, List.not_mem_nil, or_false] at hchar
  obtain rfl | rfl | rfl | rfl := hchar
  all_goals exact printable_digitChar (Nat.mod_lt _ (by decide))

/-- An escape is printable. -/
theorem printable_escapeChar (char : Char) :
    ∀ written ∈ PyValue.escapeChar char, Printable written := by
  have hslash : Printable '\\' := ⟨by decide, by decide⟩
  have hletter : ∀ letter, Printable letter → ∀ written ∈ ['\\', letter], Printable written :=
    fun letter h => List.forall_mem_cons.mpr ⟨hslash, List.forall_mem_singleton.mpr h⟩
  have hcode : ∀ code, ∀ written ∈ '\\' :: 'u' :: PyValue.hexDigits code, Printable written :=
    fun code => List.forall_mem_cons.mpr ⟨hslash, List.forall_mem_cons.mpr
      ⟨⟨by decide, by decide⟩, printable_hexDigits code⟩⟩
  rw [PyValue.escapeChar]
  split_ifs with h1 h2 h3 h4 h5 h6 h7 hplain hbasic
  · exact hletter '"' ⟨by decide, by decide⟩
  · exact hletter '\\' hslash
  · exact hletter 'n' ⟨by decide, by decide⟩
  · exact hletter 'r' ⟨by decide, by decide⟩
  · exact hletter 't' ⟨by decide, by decide⟩
  · exact hletter 'b' ⟨by decide, by decide⟩
  · exact hletter 'f' ⟨by decide, by decide⟩
  · exact List.forall_mem_singleton.mpr hplain
  · exact hcode char.toNat
  · exact List.forall_mem_append.mpr ⟨hcode _, hcode _⟩

/-- A string's literal is printable. -/
theorem printable_quoteChars (text : String) :
    ∀ char ∈ PyValue.quoteChars text, Printable char := by
  have hquote : Printable '"' := ⟨by decide, by decide⟩
  rw [PyValue.quoteChars, List.forall_mem_cons, List.forall_mem_append]
  refine ⟨hquote, fun char hchar => ?_, List.forall_mem_singleton.mpr hquote⟩
  obtain ⟨source, -, hwritten⟩ := List.mem_flatMap.mp hchar
  exact printable_escapeChar source char hwritten

/-- Digits are printable. -/
theorem printable_toDigits (n : ℕ) : ∀ char ∈ Nat.toDigits 10 n, Printable char :=
  fun _ hchar => printable_of_isDigit
    (Nat.isDigit_of_mem_toDigits (by decide) (by decide) hchar)

/-- An integer's text is printable. -/
theorem printable_int (value : ℤ) : ∀ char ∈ (toString value).toList, Printable char := by
  rw [Int.toString_eq_repr, Int.repr_eq_if]
  split_ifs
  · rw [Nat.toList_repr]
    exact printable_toDigits _
  · rw [String.toList_append, Nat.toList_repr]
    exact List.forall_mem_append.mpr
      ⟨List.forall_mem_singleton.mpr ⟨by decide, by decide⟩, printable_toDigits _⟩

/-- A float's text is printable. -/
theorem printable_float {text : String} (h : FloatText text) :
    ∀ char ∈ text.toList, Printable char := by
  obtain hword | ⟨sign, hsign, whole, fraction, exponent, htext, hfraction, hexponent, -⟩ := h
  · simp only [List.mem_cons, List.not_mem_nil, or_false] at hword
    obtain rfl | rfl | rfl := hword <;> exact printable_of_all rfl
  · rw [htext, List.forall_mem_append, List.forall_mem_append, List.forall_mem_append]
    refine ⟨?_, printable_toDigits whole, ?_, ?_⟩
    · simp only [List.mem_cons, List.not_mem_nil, or_false] at hsign
      obtain rfl | rfl := hsign
      · exact List.forall_mem_nil _
      · exact List.forall_mem_singleton.mpr ⟨by decide, by decide⟩
    · obtain rfl | ⟨digits, rfl, -, hdigits⟩ := hfraction
      · exact List.forall_mem_nil _
      · exact List.forall_mem_cons.mpr ⟨⟨by decide, by decide⟩,
          fun char hchar => printable_of_isDigit (hdigits char hchar)⟩
    · obtain rfl | ⟨mark, hmark, sign, hsign, digits, rfl, -, hdigits⟩ := hexponent
      · exact List.forall_mem_nil _
      · refine List.forall_mem_cons.mpr ⟨?_, List.forall_mem_append.mpr
          ⟨?_, fun char hchar => printable_of_isDigit (hdigits char hchar)⟩⟩
        · simp only [List.mem_cons, List.not_mem_nil, or_false] at hmark
          obtain rfl | rfl := hmark <;> exact ⟨by decide, by decide⟩
        · simp only [List.mem_cons, List.not_mem_nil, or_false] at hsign
          obtain rfl | rfl | rfl := hsign
          · exact List.forall_mem_nil _
          · exact List.forall_mem_singleton.mpr ⟨by decide, by decide⟩
          · exact List.forall_mem_singleton.mpr ⟨by decide, by decide⟩

/-- A container of printable parts without white space is printable. -/
theorem printable_wrap_compact {depth : ℕ} {opening closing : Char} {parts : List (List Char)}
    (hopening : Printable opening) (hclosing : Printable closing)
    (hparts : ∀ part ∈ parts, ∀ char ∈ part, Printable char) :
    ∀ char ∈ JsonLayout.compact.wrap depth opening closing parts, Printable char := by
  have hjoined : ∀ char ∈ JsonLayout.compact.joined (depth + 1) parts, Printable char := by
    induction parts with
    | nil => exact List.forall_mem_nil _
    | cons part parts ih =>
      rw [List.forall_mem_cons] at hparts
      cases parts with
      | nil =>
        rw [JsonLayout.joined_singleton]
        exact hparts.1
      | cons next later =>
        rw [JsonLayout.joined_cons_cons]
        exact List.forall_mem_append.mpr ⟨hparts.1, List.forall_mem_cons.mpr
          ⟨⟨by decide, by decide⟩, ih hparts.2⟩⟩
  rw [JsonLayout.wrap]
  split_ifs
  · exact List.forall_mem_cons.mpr ⟨hopening, List.forall_mem_singleton.mpr hclosing⟩
  · exact List.forall_mem_cons.mpr ⟨hopening, List.forall_mem_append.mpr ⟨List.forall_mem_nil _,
      List.forall_mem_append.mpr ⟨hjoined, List.forall_mem_singleton.mpr hclosing⟩⟩⟩

mutual

/-- Compact text is printable. -/
theorem printable_encode : ∀ (value : PyValue) {depth : ℕ} {text : List Char},
    value.WellFormed → PyValue.encode .compact depth value = .ok text →
      ∀ char ∈ text, Printable char
  | .none, _, _, _, h => by
    rw [PyValue.encode] at h
    cases h
    exact printable_of_all rfl
  | .bool value, _, _, _, h => by
    rw [PyValue.encode] at h
    cases h
    cases value <;> exact printable_of_all rfl
  | .int value, _, _, _, h => by
    rw [PyValue.encode] at h
    cases h
    exact printable_int value
  | .float literal, _, _, hvalue, h => by
    rw [PyValue.encode] at h
    cases h
    rw [PyValue.WellFormed] at hvalue
    exact printable_float hvalue
  | .str string, _, _, _, h => by
    rw [PyValue.encode] at h
    cases h
    exact printable_quoteChars string
  | .list items, _, _, hvalue, h => by
    obtain ⟨parts, hparts, rfl⟩ := PyValue.of_encode_list h
    rw [PyValue.WellFormed] at hvalue
    exact printable_wrap_compact ⟨by decide, by decide⟩ ⟨by decide, by decide⟩
      (printable_encodeItems items hvalue hparts)
  | .dict entries, _, _, hvalue, h => by
    obtain ⟨parts, hparts, rfl⟩ := PyValue.of_encode_dict h
    rw [PyValue.WellFormed] at hvalue
    exact printable_wrap_compact ⟨by decide, by decide⟩ ⟨by decide, by decide⟩
      (printable_encodeEntries entries hvalue.2 hparts)
  | .object _, _, _, _, h => by
    rw [PyValue.encode] at h
    cases h

/-- So are the compact texts of items. -/
theorem printable_encodeItems : ∀ (items : List PyValue) {depth : ℕ} {parts : List (List Char)},
    PyValue.WellFormedItems items → PyValue.encodeItems .compact depth items = .ok parts →
      ∀ part ∈ parts, ∀ char ∈ part, Printable char
  | [], _, _, _, h => by
    rw [PyValue.encodeItems] at h
    cases h
    exact List.forall_mem_nil _
  | item :: items, _, _, hitems, h => by
    obtain ⟨text, later, htext, hlater, rfl⟩ := PyValue.of_encodeItems_cons h
    rw [PyValue.WellFormedItems] at hitems
    exact List.forall_mem_cons.mpr
      ⟨printable_encode item hitems.1 htext, printable_encodeItems items hitems.2 hlater⟩

/-- So are the compact texts of entries. -/
theorem printable_encodeEntries : ∀ (entries : List (String × PyValue)) {depth : ℕ}
    {parts : List (List Char)}, PyValue.WellFormedEntries entries →
      PyValue.encodeEntries .compact depth entries = .ok parts →
        ∀ part ∈ parts, ∀ char ∈ part, Printable char
  | [], _, _, _, h => by
    rw [PyValue.encodeEntries] at h
    cases h
    exact List.forall_mem_nil _
  | (key, value) :: entries, _, _, hentries, h => by
    obtain ⟨text, later, htext, hlater, rfl⟩ := PyValue.of_encodeEntries_cons h
    rw [PyValue.WellFormedEntries] at hentries
    refine List.forall_mem_cons.mpr
      ⟨List.forall_mem_append.mpr ⟨printable_quoteChars key, List.forall_mem_cons.mpr
        ⟨⟨by decide, by decide⟩, ?_⟩⟩, printable_encodeEntries entries hentries.2 hlater⟩
    exact printable_encode value hentries.1 htext

end

/-- Compact text has printable characters only. -/
theorem printable_dumps {value : PyValue} {text : String} (hvalue : value.WellFormed)
    (h : value.dumps = .ok text) : ∀ char ∈ text.toList, Printable char := by
  rw [PyValue.dumps_eq_encode 0] at h
  cases hencode : PyValue.encode .compact 0 value with
  | error e =>
    rw [hencode] at h
    cases h
  | ok chars =>
    rw [hencode] at h
    cases h
    rw [String.toList_ofList]
    exact printable_encode value hvalue hencode

end Printable

end Steve.Library
