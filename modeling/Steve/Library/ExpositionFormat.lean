import Steve.Library.Decimal

/-!
# The text exposition format of metrics

A line-oriented format. A line holds a sample, metadata of a metric, a comment, or nothing,
and every line ends with a line feed. A sample is a metric name, labels between braces, a
value and an optional timestamp. Label values are quoted, with the backslash, the double
quote and the line feed escaped.

The results compare a writer that copies a label value unescaped with what is read back:
the value survives exactly when it holds none of the three special characters.
-/

namespace Steve.Library.Exposition

/-- The value of a sample. -/
inductive SampleValue
  | finite (value : ℚ)
  | nan
  | positiveInfinity
  | negativeInfinity
  deriving DecidableEq

/-- One sample of a metric. -/
structure Sample where
  metric : String
  labels : List (String × String)
  value : SampleValue
  timestamp : Option ℤ
  deriving DecidableEq

/-- What one line says. -/
inductive Entry
  | ignored
  | help (metric : String)
  | type (metric : String)
  | sample (sample : Sample)
  deriving DecidableEq

/-- The sample a line reports, if it reports one. -/
def Entry.sample? : Entry → Option Sample
  | .sample reported => some reported
  | _ => none

/-- Whether a character separates tokens. -/
def isBlank (char : Char) : Bool := char == ' ' || char == '\t'

/-- Whether a label name can start with the character. -/
def isLabelStart (char : Char) : Bool := char.isAlpha || char == '_'

/-- Whether a label name can go on with the character. -/
def isLabelChar (char : Char) : Bool := char.isAlphanum || char == '_'

/-- Whether a metric name can start with the character. -/
def isMetricStart (char : Char) : Bool := isLabelStart char || char == ':'

/-- Whether a metric name can go on with the character. -/
def isMetricChar (char : Char) : Bool := isLabelChar char || char == ':'

/-- The lines of a text that ends every line with a line feed. -/
def splitLines : List Char → Option (List (List Char))
  | [] => some []
  | char :: rest =>
    match splitLines rest with
    | none => none
    | some lines =>
      if char = '\n' then some ([] :: lines)
      else match lines with
        | [] => none
        | line :: later => some ((char :: line) :: later)

/-- The nonempty parts of a text between its blanks. -/
def tokens (text : List Char) : List (List Char) :=
  (text.splitOnP isBlank).filter (· ≠ [])

/-- Whether a text is a name with the given characters. -/
def isName (start next : Char → Bool) (text : List Char) : Bool :=
  text.head?.any start && text.all next

/-- Read the name a text starts with. -/
def scanName (start next : Char → Bool) (text : List Char) : Option (List Char × List Char) :=
  let name := text.takeWhile next
  if isName start next name then some (name, text.dropWhile next) else none

/-- Read one given character behind blanks. -/
def scanChar (char : Char) (text : List Char) : Option (List Char) :=
  let text := text.dropWhile isBlank
  if text.head? = some char then some text.tail else none

/-- The character an escape sequence stands for. -/
def unescape (char : Char) : Option Char :=
  if char = '\\' then some '\\'
  else if char = '"' then some '"'
  else if char = 'n' then some '\n'
  else none

/-- Read a label value and its closing quote. -/
def scanLabelValue : List Char → Option (List Char × List Char)
  | [] => none
  | char :: rest =>
    if char = '"' then some ([], rest)
    else if char = '\n' then none
    else if char = '\\' then
      match rest with
      | [] => none
      | escaped :: rest => do
        let plain ← unescape escaped
        let (value, rest) ← scanLabelValue rest
        some (plain :: value, rest)
    else do
      let (value, rest) ← scanLabelValue rest
      some (char :: value, rest)

/-- Read labels and the closing brace. A last label may be followed by a comma; every label
takes a character at least, so as much fuel as characters is enough. -/
def scanLabels : ℕ → List Char → Option (List (String × String) × List Char)
  | 0, _ => none
  | fuel + 1, text => do
    let text := text.dropWhile isBlank
    if text.head? = some '\x7d' then some ([], text.tail)
    else
      let (name, rest) ← scanName isLabelStart isLabelChar text
      let rest ← scanChar '=' rest
      let rest ← scanChar '"' rest
      let (value, rest) ← scanLabelValue rest
      let label := (String.ofList name, String.ofList value)
      let rest := rest.dropWhile isBlank
      if rest.head? = some ',' then
        let (later, rest) ← scanLabels fuel rest.tail
        some (label :: later, rest)
      else
        let rest ← scanChar '\x7d' rest
        some ([label], rest)

/-- Read the value of a sample. -/
def readValue (text : List Char) : Option SampleValue :=
  match readDecimal text with
  | some value => some (.finite value)
  | none =>
    if text = ['N', 'a', 'N'] then some .nan
    else if text = ['+', 'I', 'n', 'f'] then some .positiveInfinity
    else if text = ['-', 'I', 'n', 'f'] then some .negativeInfinity
    else none

/-- Read a value and an optional timestamp. -/
def readMeasurement (text : List Char) : Option (SampleValue × Option ℤ) :=
  match tokens text with
  | [value] => (readValue value).map (·, none)
  | [value, timestamp] => do
    let value ← readValue value
    let timestamp ← readInteger timestamp
    some (value, some timestamp)
  | _ => none

/-- Read the line of a sample. -/
def parseSample (text : List Char) : Option Sample := do
  let (metric, rest) ← scanName isMetricStart isMetricChar text
  let rest := rest.dropWhile isBlank
  let (labels, rest) ←
    if rest.head? = some '\x7b' then scanLabels rest.length rest.tail else some ([], rest)
  let (value, timestamp) ← readMeasurement rest
  some ⟨String.ofList metric, labels, value, timestamp⟩

/-- The kinds of metrics. -/
def metricKinds : List (List Char) :=
  ["counter".toList, "gauge".toList, "histogram".toList, "summary".toList, "untyped".toList]

/-- Read a comment: metadata of a metric behind its keyword, else nothing. -/
def parseComment (text : List Char) : Option Entry :=
  match tokens text with
  | [] => some .ignored
  | keyword :: operands =>
    if keyword = ['H', 'E', 'L', 'P'] then
      match operands with
      | [] => none
      | metric :: _ =>
        if isName isMetricStart isMetricChar metric then some (.help (String.ofList metric))
        else none
    else if keyword = ['T', 'Y', 'P', 'E'] then
      match operands with
      | [metric, kind] =>
        if isName isMetricStart isMetricChar metric ∧ kind ∈ metricKinds then
          some (.type (String.ofList metric))
        else none
      | _ => none
    else some .ignored

/-- Read a line. -/
def parseLine (line : List Char) : Option Entry :=
  let text := line.dropWhile isBlank
  if text = [] then some .ignored
  else if text.head? = some '#' then parseComment text.tail
  else (parseSample text).map .sample

/-- Whether metadata is given once for a metric, its type before its samples. -/
def Entry.mayFollow : Entry → List Entry → Bool
  | .help metric, earlier => earlier.all fun
    | .help other => metric != other
    | _ => true
  | .type metric, earlier => earlier.all fun
    | .type other => metric != other
    | .sample reported => metric != reported.metric
    | _ => true
  | _, _ => true

/-- Whether every line may follow the lines before it. -/
def wellOrdered (earlier : List Entry) : List Entry → Bool
  | [] => true
  | entry :: rest => entry.mayFollow earlier && wellOrdered (entry :: earlier) rest

/-- The samples of a text. -/
def parse (text : String) : Option (List Sample) := do
  let lines ← splitLines text.toList
  let entries ← lines.mapM parseLine
  if wellOrdered [] entries then some (entries.filterMap Entry.sample?) else none

/-- The characters that a label value escapes. -/
def specialChars : List Char := ['"', '\\', '\n']

/-- A text that reads as itself between quotes. -/
def Plain (text : List Char) : Prop := ∀ char ∈ specialChars, char ∉ text

instance (text : List Char) : Decidable (Plain text) :=
  List.decidableBAll (· ∉ text) specialChars

/-- The text of a sample up to its first label value. -/
def sampleHead (metric label : List Char) : List Char :=
  metric ++ '\x7b' :: (label ++ ['=', '"'])

section Lines

variable {line rest : List Char}

/-- A line is split off at its line feed. -/
theorem splitLines_cons (h : '\n' ∉ line) :
    splitLines (line ++ '\n' :: rest) = (splitLines rest).map (line :: ·) := by
  induction line with
  | nil => cases hrest : splitLines rest <;> simp [splitLines, hrest]
  | cons char line ih =>
    rw [List.mem_cons, not_or] at h
    have hchar : char ≠ '\n' := fun hsame => h.1 hsame.symm
    rw [List.cons_append, splitLines, ih h.2]
    cases splitLines rest <;> simp [hchar]

/-- Lines without a line feed are split as they were joined. -/
theorem splitLines_flatMap {lines : List (List Char)} (h : ∀ line ∈ lines, '\n' ∉ line) :
    splitLines (lines.flatMap (· ++ ['\n'])) = some lines := by
  induction lines with
  | nil => rfl
  | cons line lines ih =>
    rw [List.flatMap_cons, List.append_assoc, List.singleton_append,
      splitLines_cons (h line List.mem_cons_self),
      ih fun other hother => h other (List.mem_cons_of_mem line hother), Option.map_some]

/-- The first line ends at the first line feed. -/
theorem splitLines_head {lines : List (List Char)}
    (h : splitLines (line ++ '\n' :: rest) = some lines) :
    ∃ later, lines = line.takeWhile (· ≠ '\n') :: later := by
  by_cases hmem : '\n' ∈ line
  · obtain ⟨before, after, rfl, hbefore⟩ := List.eq_append_cons_of_mem hmem
    rw [List.append_assoc, List.cons_append, splitLines_cons hbefore] at h
    obtain ⟨later, -, rfl⟩ := Option.map_eq_some_iff.mp h
    have hkept : ∀ char ∈ before, decide (char ≠ '\n') = true := fun char hchar =>
      decide_eq_true fun hsame => hbefore (hsame ▸ hchar)
    exact ⟨later, by rw [List.takeWhile_append_of_pos hkept]; simp⟩
  · rw [splitLines_cons hmem] at h
    obtain ⟨later, -, rfl⟩ := Option.map_eq_some_iff.mp h
    refine ⟨later, ?_⟩
    rw [List.takeWhile_eq_self_iff.mpr]
    exact fun char hchar => decide_eq_true fun hsame => hmem (hsame ▸ hchar)

end Lines

/-- Joined lines with a final line feed end every line with a line feed. -/
theorem toList_joinLines {lines : List String} (h : lines ≠ []) :
    ("\n".intercalate lines ++ "\n").toList = (lines.map String.toList).flatMap (· ++ ['\n']) := by
  induction lines with
  | nil => exact absurd rfl h
  | cons line lines ih =>
    cases lines with
    | nil => simp
    | cons next later =>
      rw [String.intercalate_cons_cons, String.append_assoc, String.append_assoc,
        String.toList_append, String.toList_append, ih (List.cons_ne_nil next later)]
      simp

section LabelValues

/-- A plain value is read as it was written. -/
theorem scanLabelValue_plain {value : List Char} (h : Plain value) (rest : List Char) :
    scanLabelValue (value ++ '"' :: rest) = some (value, rest) := by
  induction value with
  | nil =>
    rw [List.nil_append, scanLabelValue.eq_def]
    rfl
  | cons char value ih =>
    have hrest : Plain value := fun special hspecial hmem =>
      h special hspecial (List.mem_cons_of_mem char hmem)
    have hchar : ∀ special ∈ specialChars, char ≠ special := fun special hspecial hsame =>
      h special hspecial (hsame ▸ List.mem_cons_self)
    rw [List.cons_append, scanLabelValue.eq_def]
    simp only
    rw [if_neg (hchar '"' (by decide)), if_neg (hchar '\n' (by decide)),
      if_neg (hchar '\\' (by decide)), ih hrest]
    rfl

/-- What is read is no longer than the text it is read from, and as long only where that text
is plain and read as it was written. -/
theorem scanLabelValue_consumed {text value rest : List Char}
    (h : scanLabelValue text = some (value, rest)) :
    ∃ consumed, text = consumed ++ '"' :: rest ∧ value.length ≤ consumed.length ∧
      (value.length = consumed.length → Plain consumed) := by
  fun_induction scanLabelValue text generalizing value rest with
  | case1 => cases h
  | case2 rest' =>
    obtain ⟨rfl, rfl⟩ := Prod.mk.inj (Option.some.inj h)
    exact ⟨[], rfl, Nat.le_refl _, fun _ => by decide⟩
  | case3 => cases h
  | case4 => cases h
  | case5 escaped later hquote hline ih =>
    -- an escape sequence reads two characters as one
    obtain ⟨plain, -, h⟩ := Option.bind_eq_some_iff.mp h
    obtain ⟨⟨value', rest'⟩, hscan, h⟩ := Option.bind_eq_some_iff.mp h
    obtain ⟨rfl, rfl⟩ := Prod.mk.inj (Option.some.inj h)
    obtain ⟨consumed, rfl, hle, -⟩ := ih hscan
    refine ⟨'\\' :: escaped :: consumed, rfl, ?_, ?_⟩
    · simp only [List.length_cons]
      omega
    · intro hlength
      simp only [List.length_cons] at hlength
      omega
  | case6 char later hquote hline hescape ih =>
    obtain ⟨⟨value', rest'⟩, hscan, h⟩ := Option.bind_eq_some_iff.mp h
    obtain ⟨rfl, rfl⟩ := Prod.mk.inj (Option.some.inj h)
    obtain ⟨consumed, rfl, hle, hplain⟩ := ih hscan
    refine ⟨char :: consumed, rfl, Nat.succ_le_succ hle, fun hlength => ?_⟩
    have hconsumed := hplain (Nat.succ_injective hlength)
    intro special hspecial hmem
    obtain rfl | hmem := List.mem_cons.mp hmem
    · simp only [specialChars, List.mem_cons, List.not_mem_nil, or_false] at hspecial
      obtain rfl | rfl | rfl := hspecial
      · exact hquote rfl
      · exact hescape rfl
      · exact hline rfl
    · exact hconsumed special hspecial hmem

/-- A value written unescaped is read back from its line only if it is plain. -/
theorem plain_of_scanLabelValue {value tail rest : List Char} (htail : '"' ∉ tail)
    (h : scanLabelValue ((value ++ '"' :: tail).takeWhile (· ≠ '\n')) = some (value, rest)) :
    Plain value := by
  obtain ⟨consumed, htext, hle, hplain⟩ := scanLabelValue_consumed h
  by_cases hmem : '\n' ∈ value
  · -- the line breaks off inside the value, so too little is left to read
    exfalso
    obtain ⟨before, after, rfl, hbefore⟩ := List.eq_append_cons_of_mem hmem
    have hkept : ∀ char ∈ before, decide (char ≠ '\n') = true := fun char hchar =>
      decide_eq_true fun hsame => hbefore (hsame ▸ hchar)
    rw [List.append_assoc, List.takeWhile_append_of_pos hkept] at htext
    have hlength := congrArg List.length htext
    simp at hlength hle
    omega
  · have hkept : ∀ char ∈ value, decide (char ≠ '\n') = true := fun char hchar =>
      decide_eq_true fun hsame => hmem (hsame ▸ hchar)
    have hquote : ('"' :: tail).takeWhile (· ≠ '\n') = '"' :: tail.takeWhile (· ≠ '\n') := by
      simp
    rw [List.takeWhile_append_of_pos hkept, hquote] at htext
    obtain ⟨more, hvalue, hmore⟩ | ⟨more, hconsumed, hmore⟩ :=
      List.append_eq_append_iff.mp htext
    · -- the closing quote that was read lies behind the value
      cases more with
      | nil =>
        rw [List.append_nil] at hvalue
        subst hvalue
        exact hplain rfl
      | cons char more =>
        rw [List.cons_append, List.cons.injEq] at hmore
        have hlast : '"' ∈ tail.takeWhile (· ≠ '\n') := by
          rw [hmore.2]
          simp
        exact absurd ((List.takeWhile_sublist _).subset hlast) htail
    · have hlength := congrArg List.length hconsumed
      rw [List.length_append] at hlength
      have hnone : more = [] := List.length_eq_zero_iff.mp (by omega)
      subst hnone
      rw [List.append_nil] at hconsumed
      subst hconsumed
      exact hplain rfl

end LabelValues

section SampleLines

variable {metric label : List Char}

/-- A name starts with a start character. -/
theorem exists_of_isName {start next : Char → Bool} {name : List Char}
    (h : isName start next name = true) : ∃ first later, name = first :: later ∧
      start first = true := by
  cases name with
  | nil => cases h
  | cons first later =>
    rw [isName, Bool.and_eq_true] at h
    exact ⟨first, later, rfl, h.1⟩

/-- A name is read up to the first character outside it. -/
theorem scanName_append {start next : Char → Bool} {name rest : List Char}
    (h : isName start next name = true) (hrest : ∀ char ∈ rest.head?, next char = false) :
    scanName start next (name ++ rest) = some (name, rest) := by
  have hall : ∀ char ∈ name, next char = true := by
    rw [isName, Bool.and_eq_true] at h
    exact List.all_eq_true.mp h.2
  have hstop : rest.takeWhile next = [] ∧ rest.dropWhile next = rest := by
    cases rest with
    | nil => exact ⟨rfl, rfl⟩
    | cons char rest => simp [hrest char rfl]
  simp only [scanName, List.takeWhile_append_of_pos hall, List.dropWhile_append_of_pos hall,
    hstop.1, hstop.2, List.append_nil, h, if_true]

/-- A start character is no blank. -/
theorem isBlank_of_isMetricStart {char : Char} (h : isMetricStart char = true) :
    isBlank char = false := by
  rw [isBlank, Bool.or_eq_false_iff, beq_eq_false_iff_ne, beq_eq_false_iff_ne]
  constructor
  · rintro rfl
    exact absurd h (by decide)
  · rintro rfl
    exact absurd h (by decide)

/-- The labels of a sample are read from its first label value on. -/
theorem scanLabels_label (fuel : ℕ) (h : isName isLabelStart isLabelChar label = true)
    (text : List Char) :
    scanLabels (fuel + 1) (label ++ '=' :: '"' :: text) = (do
      let (value, rest) ← scanLabelValue text
      let pair := (String.ofList label, String.ofList value)
      let rest := rest.dropWhile isBlank
      if rest.head? = some ',' then
        let (later, rest) ← scanLabels fuel rest.tail
        some (pair :: later, rest)
      else
        let rest ← scanChar '\x7d' rest
        some ([pair], rest)) := by
  obtain ⟨first, later, rfl, hfirst⟩ := exists_of_isName h
  have hblank : isBlank first = false :=
    isBlank_of_isMetricStart (by rw [isMetricStart, hfirst, Bool.true_or])
  have hbrace : first ≠ '\x7d' := by
    rintro rfl
    exact absurd hfirst (by decide)
  have hkept : (first :: later ++ '=' :: '"' :: text).dropWhile isBlank =
      first :: later ++ '=' :: '"' :: text := by
    rw [List.cons_append, List.dropWhile_cons, hblank]
    rfl
  have hhead : (first :: later ++ '=' :: '"' :: text).head? ≠ some '\x7d' := fun hsame =>
    hbrace (Option.some.inj hsame)
  rw [scanLabels]
  simp only [hkept]
  rw [if_neg hhead, scanName_append h (by intro char hchar; cases hchar; decide)]
  rfl

/-- A line that starts with a metric name and a brace is a sample. -/
theorem parseLine_sampleHead (hmetric : isName isMetricStart isMetricChar metric = true)
    (text : List Char) :
    parseLine (sampleHead metric label ++ text) = (do
      let (labels, rest) ← scanLabels (label.length + text.length + 3)
        (label ++ '=' :: '"' :: text)
      let (value, timestamp) ← readMeasurement rest
      some ⟨String.ofList metric, labels, value, timestamp⟩ : Option Sample).map .sample := by
  obtain ⟨first, later, hname, hfirst⟩ := exists_of_isName hmetric
  have hcomment : first ≠ '#' := by
    rintro rfl
    exact absurd hfirst (by decide)
  have hline : sampleHead metric label ++ text =
      metric ++ '\x7b' :: (label ++ '=' :: '"' :: text) := by
    simp [sampleHead]
  have hkept : (metric ++ '\x7b' :: (label ++ '=' :: '"' :: text)).dropWhile isBlank =
      metric ++ '\x7b' :: (label ++ '=' :: '"' :: text) := by
    rw [hname, List.cons_append, List.dropWhile_cons, isBlank_of_isMetricStart hfirst]
    rfl
  have hbrace : ('\x7b' :: (label ++ '=' :: '"' :: text)).dropWhile isBlank =
      '\x7b' :: (label ++ '=' :: '"' :: text) := rfl
  have hnil : metric ++ '\x7b' :: (label ++ '=' :: '"' :: text) ≠ [] := by simp
  have hhash : (metric ++ '\x7b' :: (label ++ '=' :: '"' :: text)).head? ≠ some '#' := by
    rw [hname]
    exact fun hsame => hcomment (Option.some.inj hsame)
  have hlength : ('\x7b' :: (label ++ '=' :: '"' :: text)).length =
      label.length + text.length + 3 := by
    simp only [List.length_cons, List.length_append]
    omega
  simp only [hline, parseLine, hkept]
  rw [if_neg hnil, if_neg hhash, parseSample,
    scanName_append hmetric (by intro char hchar; cases hchar; decide)]
  simp only [Option.bind_eq_bind, Option.bind_some, hbrace, hlength]
  rfl

/-- The first label of a sample is what is read from behind its opening quote. -/
theorem labels_of_parseLine (hmetric : isName isMetricStart isMetricChar metric = true)
    (hlabel : isName isLabelStart isLabelChar label = true) {text : List Char} {entry : Entry}
    (h : parseLine (sampleHead metric label ++ text) = some entry) :
    ∃ value rest sample later, scanLabelValue text = some (value, rest) ∧
      entry = .sample sample ∧
      sample.labels = (String.ofList label, String.ofList value) :: later := by
  rw [parseLine_sampleHead hmetric, scanLabels_label _ hlabel] at h
  obtain ⟨sample, hsample, rfl⟩ := Option.map_eq_some_iff.mp h
  obtain ⟨⟨labels, rest'⟩, hlabels, hsample⟩ := Option.bind_eq_some_iff.mp hsample
  obtain ⟨⟨value', timestamp⟩, -, hsample⟩ := Option.bind_eq_some_iff.mp hsample
  obtain ⟨⟨value, rest⟩, hscan, hlabels⟩ := Option.bind_eq_some_iff.mp hlabels
  obtain rfl := Option.some.inj hsample
  simp only at hlabels
  split at hlabels
  · obtain ⟨⟨later, rest''⟩, -, hlabels⟩ := Option.bind_eq_some_iff.mp hlabels
    obtain ⟨rfl, -⟩ := Prod.mk.inj (Option.some.inj hlabels)
    exact ⟨value, rest, _, later, hscan, rfl, rfl⟩
  · obtain ⟨rest'', -, hlabels⟩ := Option.bind_eq_some_iff.mp hlabels
    obtain ⟨rfl, -⟩ := Prod.mk.inj (Option.some.inj hlabels)
    exact ⟨value, rest, _, [], hscan, rfl, rfl⟩

/-- A single token behind a blank is a value without a timestamp. -/
theorem readMeasurement_blank {number : List Char} {value : ℚ}
    (hblank : ∀ char ∈ number, isBlank char = false) (hnumber : number ≠ [])
    (h : readDecimal number = some value) :
    readMeasurement (' ' :: number) = some (.finite value, none) := by
  have hsplit : number.splitOnP isBlank = [number] :=
    List.splitOnP_eq_singleton hblank
  have htokens : tokens (' ' :: number) = [number] := by
    have hfirst : isBlank ' ' = true := rfl
    rw [tokens, List.splitOnP_cons_eq_if_modifyHead, hfirst, if_pos rfl, hsplit]
    simp [hnumber]
  simp [readMeasurement, htokens, readValue, h]

/-- A sample with one plain label value and a finite value reads back. -/
theorem parseLine_sample (hmetric : isName isMetricStart isMetricChar metric = true)
    (hlabel : isName isLabelStart isLabelChar label = true) {text number : List Char} {value : ℚ}
    (htext : Plain text) (hblank : ∀ char ∈ number, isBlank char = false)
    (hnumber : number ≠ []) (h : readDecimal number = some value) :
    parseLine (sampleHead metric label ++ (text ++ '"' :: '\x7d' :: ' ' :: number)) =
      some (.sample ⟨String.ofList metric, [(String.ofList label, String.ofList text)],
        .finite value, none⟩) := by
  have hclose : scanChar '\x7d' ('\x7d' :: ' ' :: number) = some (' ' :: number) := rfl
  rw [parseLine_sampleHead hmetric, scanLabels_label _ hlabel, scanLabelValue_plain htext]
  simp only [Option.bind_eq_bind, Option.bind_some]
  have hstop : ('\x7d' :: ' ' :: number).dropWhile isBlank = '\x7d' :: ' ' :: number := rfl
  rw [hstop, if_neg (by simp), hclose]
  simp only [Option.bind_some]
  rw [readMeasurement_blank hblank hnumber h]
  rfl

/-- A sample is on one line up to its first label value. -/
theorem newline_notMem_sampleHead (hmetric : isName isMetricStart isMetricChar metric = true)
    (hlabel : isName isLabelStart isLabelChar label = true) :
    '\n' ∉ sampleHead metric label := by
  rw [isName, Bool.and_eq_true, List.all_eq_true] at hmetric hlabel
  simp only [sampleHead, List.mem_append, List.mem_cons, List.not_mem_nil, or_false, not_or]
  refine ⟨fun hmem => ?_, by decide, fun hmem => ?_, by decide, by decide⟩
  · exact absurd (hmetric.2 '\n' hmem) (by decide)
  · exact absurd (hlabel.2 '\n' hmem) (by decide)

end SampleLines

section Texts

/-- Whether a line has no line feed and reports no sample. -/
def Silent (line : List Char) : Prop :=
  '\n' ∉ line ∧ ∀ entry, parseLine line = some entry → entry.sample? = none

/-- The lines of a text are those before a given one, that one up to its first line feed, and
later ones. -/
theorem splitLines_flatMap_append {before : List (List Char)}
    (hbefore : ∀ line ∈ before, Silent line) {line rest : List Char} {lines : List (List Char)}
    (h : splitLines (before.flatMap (· ++ ['\n']) ++ (line ++ '\n' :: rest)) = some lines) :
    ∃ later, lines = before ++ line.takeWhile (· ≠ '\n') :: later := by
  induction before generalizing lines with
  | nil => exact splitLines_head h
  | cons first before ih =>
    rw [List.flatMap_cons, List.append_assoc, List.append_assoc, List.singleton_append,
      splitLines_cons (hbefore first List.mem_cons_self).1] at h
    obtain ⟨lines', hlines, rfl⟩ := Option.map_eq_some_iff.mp h
    obtain ⟨later, rfl⟩ :=
      ih (fun other hother => hbefore other (List.mem_cons_of_mem first hother)) hlines
    exact ⟨later, rfl⟩

/-- The first sample is on the first line that is not silent. -/
theorem filterMap_sample?_of_silent {before later : List (List Char)} {line : List Char}
    {entries : List Entry} (hbefore : ∀ line ∈ before, Silent line)
    (h : (before ++ line :: later).mapM parseLine = some entries) :
    ∃ entry others, parseLine line = some entry ∧
      entries.filterMap Entry.sample? = (entry :: others).filterMap Entry.sample? := by
  induction before generalizing entries with
  | nil =>
    rw [List.nil_append, List.mapM_cons] at h
    obtain ⟨entry, hentry, h⟩ := Option.bind_eq_some_iff.mp h
    obtain ⟨others, -, h⟩ := Option.bind_eq_some_iff.mp h
    obtain rfl := Option.some.inj h
    exact ⟨entry, others, hentry, rfl⟩
  | cons first before ih =>
    rw [List.cons_append, List.mapM_cons] at h
    obtain ⟨silent, hsilent, h⟩ := Option.bind_eq_some_iff.mp h
    obtain ⟨rest, hrest, h⟩ := Option.bind_eq_some_iff.mp h
    obtain rfl := Option.some.inj h
    rw [List.filterMap_cons_none ((hbefore first List.mem_cons_self).2 silent hsilent)]
    exact ih (fun other hother => hbefore other (List.mem_cons_of_mem first hother)) hrest

/-- A first label value that was written unescaped and is read back is plain. -/
theorem plain_of_parse {before : List (List Char)} (hbefore : ∀ line ∈ before, Silent line)
    {metric label value tail rest : List Char}
    (hmetric : isName isMetricStart isMetricChar metric = true)
    (hlabel : isName isLabelStart isLabelChar label = true) (htail : '"' ∉ tail) {text : String}
    (htext : text.toList = before.flatMap (· ++ ['\n']) ++
      (sampleHead metric label ++ (value ++ '"' :: tail) ++ '\n' :: rest))
    {sample : Sample} {later : List Sample} (h : parse text = some (sample :: later))
    (hvalue : sample.labels.head? = some (String.ofList label, String.ofList value)) :
    Plain value := by
  have hhead : ∀ char ∈ sampleHead metric label, decide (char ≠ '\n') = true := fun char hmem =>
    decide_eq_true fun hsame => newline_notMem_sampleHead hmetric hlabel (hsame ▸ hmem)
  obtain ⟨lines, hlines, hparsed⟩ := Option.bind_eq_some_iff.mp h
  obtain ⟨entries, hentries, hordered⟩ := Option.bind_eq_some_iff.mp hparsed
  rw [htext] at hlines
  obtain ⟨laterLines, rfl⟩ := splitLines_flatMap_append hbefore hlines
  obtain ⟨entry, others, hentry, hsamples⟩ := filterMap_sample?_of_silent hbefore hentries
  rw [List.takeWhile_append_of_pos hhead] at hentry
  obtain ⟨read, unread, reported, labels, hscan, rfl, hlabels⟩ :=
    labels_of_parseLine hmetric hlabel hentry
  split at hordered
  · -- the first sample is the one of this line, and its label is what was scanned
    have hfirst : (Entry.sample reported).sample? = some reported := rfl
    rw [hsamples, List.filterMap_cons_some hfirst, Option.some.injEq, List.cons.injEq] at hordered
    rw [← hordered.1, hlabels, List.head?_cons, Option.some.injEq, Prod.mk.injEq] at hvalue
    rw [String.ofList_injective hvalue.2] at hscan
    exact plain_of_scanLabelValue htail hscan
  · cases hordered

end Texts

end Steve.Library.Exposition
