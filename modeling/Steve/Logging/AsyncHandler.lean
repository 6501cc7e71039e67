import Steve.Logging.Formatter

/-!
# Shipping records through a queue

Before a record crosses the process boundary, the queue handler turns its exception info
into text and merges its arguments into its message. The message survives in every case.
The traceback does not: the handler leaves it where the formatter never looks, so shipping
keeps the formatted output exactly for records without exception info and for a few
that have no output, or repeat their traceback, anyway.
-/

namespace Steve.Logging

open Steve.Library

variable {A E : Type} {py : Interpreter A E} {record prepared : LogRecord A E}

/-- Format exception info into a string. -/
def textException (py : Interpreter A E) (record : LogRecord A E) : LogRecord A E :=
  match record.excInfo with
  | none => record
  | some excInfo => { record with excText := some (py.formatException excInfo), excInfo := none }

/-- Make a record ready for another process. -/
def prepare (py : Interpreter A E) (record : LogRecord A E) :
    Except PyException (LogRecord A E) := do
  let record := textException py record
  match record.args with
  | none => .ok record
  | some _ =>
    let msg ← record.getMessage py
    .ok { record with msg := .str msg, args := none }

/-- Formatted after preparing, as on the other side of the queue. -/
def shipped (formatter : StructuredLogFormatter) (py : Interpreter A E)
    (record : LogRecord A E) : Except PyException String := do
  let prepared ← prepare py record
  formatter.format py prepared

/-- A record without its exception info. -/
def withoutException (record : LogRecord A E) : LogRecord A E := { record with excInfo := none }

/-- Records that the formatter does not tell apart. -/
structure ReadsAlike (py : Interpreter A E) (record other : LogRecord A E) : Prop where
  message : record.getMessage py = other.getMessage py
  excInfo : record.excInfo = other.excInfo
  attributes : record.attributes = other.attributes
  created : record.created = other.created
  levelname : record.levelname = other.levelname
  levelno : record.levelno = other.levelno
  name : record.name = other.name
  module : record.module = other.module
  lineno : record.lineno = other.lineno

/-- Some attribute of the JSON object, other than the exception, has no JSON text. -/
def HoldsUnserializable (record : LogRecord A E) : Prop :=
  ∃ key value, record.attributes.get? key = some value ∧ key ∉ excludedKeys ∧
    key ≠ "exception" ∧ ¬value.Serializable

/-- An attribute under the exception's key already reads as the traceback. -/
def RepeatsTraceback (py : Interpreter A E) (record : LogRecord A E) : Prop :=
  ∃ excInfo value, record.excInfo = some excInfo ∧
    record.attributes.get? "exception" = some value ∧
    value.dumps = (PyValue.str (py.formatException excInfo)).dumps

/-- Some attribute that the console shows has no text. -/
def HoldsUnprintable (py : Interpreter A E) (record : LogRecord A E) : Prop :=
  ∃ key ∈ ["node_id", "core_id", "run_id"], ∃ value e, record.attributes.get? key = some value ∧
    py.str value = .error e

section Prepare

/-- Records that read alike are formatted alike. -/
theorem ReadsAlike.format_eq {other : LogRecord A E} (h : ReadsAlike py record other)
    (formatter : StructuredLogFormatter) :
    formatter.format py record = formatter.format py other := by
  simp only [StructuredLogFormatter.format, StructuredLogFormatter.logPayload,
    StructuredLogFormatter.contextPayload, corePayload, coreEntries, copiedAttributes, formatConsole,
    consoleLine, contextTags, contextTag, h.message, h.excInfo, h.attributes, h.created, h.levelname,
    h.levelno, h.name, h.module, h.lineno]

/-- A record with its exception as text reads like one without exception. -/
theorem textException_readsAlike (py : Interpreter A E) (record : LogRecord A E) :
    ReadsAlike py (textException py record) (withoutException record) := by
  cases hexc : record.excInfo with
  | none =>
    have hsame : textException py record = record := by rw [textException, hexc]
    rw [hsame]
    exact ⟨rfl, hexc, rfl, rfl, rfl, rfl, rfl, rfl, rfl⟩
  | some excInfo =>
    have hsame : textException py record =
        { record with excText := some (py.formatException excInfo), excInfo := none } := by
      rw [textException, hexc]
    rw [hsame]
    exact ⟨rfl, rfl, rfl, rfl, rfl, rfl, rfl, rfl, rfl⟩

/-- Formatting the exception leaves the arguments alone. -/
theorem textException_args (py : Interpreter A E) (record : LogRecord A E) :
    (textException py record).args = record.args := by
  rw [textException]
  cases record.excInfo <;> rfl

/-- Preparing fails with the message, or leaves a record without arguments that reads like
the record without its exception. -/
theorem prepare_cases (py : Interpreter A E) (record : LogRecord A E) :
    (∃ e, prepare py record = .error e ∧ record.getMessage py = .error e) ∨
      ∃ prepared, prepare py record = .ok prepared ∧ prepared.args = none ∧
        ReadsAlike py prepared (withoutException record) := by
  have hread := textException_readsAlike py record
  have hargs := textException_args py record
  cases hrecord : record.args with
  | none =>
    rw [hrecord] at hargs
    exact Or.inr ⟨textException py record, by simp only [prepare, hargs], hargs, hread⟩
  | some args =>
    rw [hrecord] at hargs
    have hmessage : (textException py record).getMessage py = record.getMessage py := hread.message
    cases htext : record.getMessage py with
    | error e =>
      rw [htext] at hmessage
      refine Or.inl ⟨e, ?_, rfl⟩
      simp only [prepare, hargs, hmessage]
      rfl
    | ok message =>
      rw [htext] at hmessage
      refine Or.inr ⟨_, by simp only [prepare, hargs, hmessage]; rfl, rfl, ?_⟩
      refine { hread with message := ?_ }
      -- a prepared message is a string, which stands for itself
      change (py.str (.str message) >>= fun msg => .ok msg) = record.getMessage py
      rw [py.str_str, htext]
      rfl

/-- Preparing a prepared record changes nothing. -/
theorem prepare_prepare (h : prepare py record = .ok prepared) :
    prepare py prepared = .ok prepared := by
  obtain ⟨e, herror, -⟩ | ⟨prepared', hok, hargs, hread⟩ := prepare_cases py record
  · rw [herror] at h
    cases h
  · rw [hok, Except.ok.injEq] at h
    subst h
    have hexc : prepared'.excInfo = none := hread.excInfo
    have hsame : textException py prepared' = prepared' := by rw [textException, hexc]
    simp only [prepare, hsame, hargs]

/-- A record whose message fails has no output. -/
theorem format_of_getMessage_error {e : PyException} (h : record.getMessage py = .error e)
    (formatter : StructuredLogFormatter) : formatter.format py record = .error e := by
  rw [StructuredLogFormatter.format]
  cases formatter.jsonMode with
  | true => simp only [StructuredLogFormatter.logPayload, h]; rfl
  | false => simp only [formatConsole, h]; rfl

/-- Shipping a record formats it without its exception. -/
theorem shipped_eq (formatter : StructuredLogFormatter) (py : Interpreter A E)
    (record : LogRecord A E) :
    shipped formatter py record = formatter.format py (withoutException record) := by
  obtain ⟨e, herror, hmessage⟩ | ⟨prepared, hok, -, hread⟩ := prepare_cases py record
  · have hwithout : (withoutException record).getMessage py = .error e := hmessage
    rw [format_of_getMessage_error hwithout, shipped, herror]
    rfl
  · rw [← hread.format_eq, shipped, hok]
    rfl

end Prepare

section Output

/-- In JSON mode the output is the text of the record's object. -/
theorem format_json {formatter : StructuredLogFormatter} (hjson : formatter.jsonMode = true)
    {message : String} (h : record.getMessage py = .ok message) :
    formatter.format py record = (PyValue.dict (match record.excInfo with
      | none => formatter.contextPayload py record message
      | some excInfo => (formatter.contextPayload py record message).set "exception"
          (.str (py.formatException excInfo))).entries).dumps.mapError
      fun message => ⟨.other "TypeError", message⟩ := by
  rw [StructuredLogFormatter.format, if_pos hjson, StructuredLogFormatter.logPayload, h]
  cases record.excInfo <;> rfl

/-- In JSON mode dropping the exception keeps the output exactly if it was repeated or if
there is no output. -/
theorem sameText_withoutException_json {formatter : StructuredLogFormatter}
    (hjson : formatter.jsonMode = true) {message : String}
    (h : record.getMessage py = .ok message) {excInfo : E} (hexc : record.excInfo = some excInfo) :
    SameText (formatter.format py record) (formatter.format py (withoutException record)) ↔
      formatter.includeExtra = true ∧ (HoldsUnserializable record ∨ RepeatsTraceback py record) := by
  have hwithout : (withoutException record).getMessage py = .ok message := h
  rw [format_json hjson h, format_json hjson hwithout, hexc, sameText_mapError_iff]
  change SameText (PyValue.dict ((formatter.contextPayload py record message).set "exception"
    (.str (py.formatException excInfo))).entries).dumps
    (PyValue.dict (formatter.contextPayload py record message).entries).dumps ↔ _
  have htraceback : (PyValue.str (py.formatException excInfo)).dumps =
      .ok (PyValue.quote (py.formatException excInfo)) := by rw [PyValue.dumps]
  rw [PyValue.sameText_set htraceback, get?_contextPayload_exception]
  have hothers : (∃ key old, (formatter.contextPayload py record message).get? key = some old ∧
      key ≠ "exception" ∧ ¬old.Serializable) ↔
        formatter.includeExtra = true ∧ HoldsUnserializable record := by
    constructor
    · rintro ⟨key, old, hold, hkey, hvalue⟩
      obtain ⟨⟨hextra, hcopied⟩, hattribute⟩ :=
        (unserializable_contextPayload_iff py record message formatter hvalue).mp hold
      exact ⟨hextra, key, old, hattribute, hcopied, hkey, hvalue⟩
    · rintro ⟨hextra, key, value, hattribute, hcopied, hkey, hvalue⟩
      exact ⟨key, value, (unserializable_contextPayload_iff py record message formatter
        hvalue).mpr ⟨⟨hextra, hcopied⟩, hattribute⟩, hkey, hvalue⟩
  have hrepeats : (∃ old, (if formatter.includeExtra = true then
      record.attributes.get? "exception" else none) = some old ∧
        old.dumps = .ok (PyValue.quote (py.formatException excInfo))) ↔
      formatter.includeExtra = true ∧ RepeatsTraceback py record := by
    constructor
    · rintro ⟨old, hold, hdumps⟩
      split at hold
      · rename_i hextra
        exact ⟨hextra, excInfo, old, hexc, hold, hdumps.trans htraceback.symm⟩
      · cases hold
    · rintro ⟨hextra, excInfo', old, hexc', hold, hdumps⟩
      rw [hexc, Option.some.injEq] at hexc'
      subst hexc'
      exact ⟨old, by rw [if_pos hextra, hold], hdumps.trans htraceback⟩
  rw [hothers, hrepeats, and_or_left]

/-- The context tags of a record without printable context fail. -/
theorem contextTags_error_iff (py : Interpreter A E) (record : LogRecord A E) :
    (∃ e, contextTags py record = .error e) ↔ HoldsUnprintable py record := by
  have htag : ∀ key label, (∃ e, contextTag py record key label = .error e) ↔
      ∃ value e, record.attributes.get? key = some value ∧ py.str value = .error e := by
    intro key label
    rw [contextTag]
    cases record.attributes.get? key with
    | none => simp
    | some value => cases hstr : py.str value <;> simp [bind, Except.bind, hstr]
  simp only [HoldsUnprintable, List.mem_cons, List.not_mem_nil, or_false, exists_eq_or_imp,
    exists_eq_left]
  rw [← htag "node_id" "node", ← htag "core_id" "core", ← htag "run_id" "run", contextTags]
  cases contextTag py record "node_id" "node" with
  | error e => simp [bind, Except.bind]
  | ok node =>
    cases contextTag py record "core_id" "core" with
    | error e => simp [bind, Except.bind]
    | ok core => cases contextTag py record "run_id" "run" <;> simp [bind, Except.bind]

/-- On the console dropping the exception keeps the output only if there is none. -/
theorem sameText_withoutException_console {formatter : StructuredLogFormatter}
    (hconsole : formatter.jsonMode = false) {message : String}
    (h : record.getMessage py = .ok message) {excInfo : E} (hexc : record.excInfo = some excInfo) :
    SameText (formatter.format py record) (formatter.format py (withoutException record)) ↔
      HoldsUnprintable py record := by
  have hmode : ¬formatter.jsonMode = true := by rw [hconsole]; exact Bool.false_ne_true
  have hwithout : (withoutException record).getMessage py = .ok message := h
  have htags : contextTags py (withoutException record) = contextTags py record := rfl
  rw [← contextTags_error_iff, StructuredLogFormatter.format, StructuredLogFormatter.format,
    if_neg hmode, if_neg hmode, formatConsole, formatConsole, h, hwithout, htags, hexc]
  cases contextTags py record with
  | error e => exact iff_of_true (sameText_of_error rfl rfl) ⟨e, rfl⟩
  | ok tags =>
    refine iff_of_false (fun hsame => ?_) (by simp)
    have hline : consoleLine py (withoutException record) message tags =
      consoleLine py record message tags := rfl
    have htext := (sameText_of_ok_iff rfl rfl).mp hsame
    have hlength := congrArg String.length htext
    have hnewline : "\n".length = 1 := rfl
    rw [hline, String.length_append, String.length_append] at hlength
    omega

/-- Shipping a record keeps its output, and preparing twice is preparing once, exactly if
the record carries no exception info, has no output to keep, or repeats its traceback. -/
theorem shipping_transparent_iff (formatter : StructuredLogFormatter) (py : Interpreter A E)
    (record : LogRecord A E) :
    (SameText (formatter.format py record) (shipped formatter py record) ∧
      ∀ prepared, prepare py record = .ok prepared → prepare py prepared = .ok prepared) ↔
    record.excInfo = none ∨ (∃ e, record.getMessage py = .error e) ∨
      if formatter.jsonMode = true then
        formatter.includeExtra = true ∧ (HoldsUnserializable record ∨ RepeatsTraceback py record)
      else HoldsUnprintable py record := by
  rw [and_iff_left fun prepared => prepare_prepare, shipped_eq]
  cases hexc : record.excInfo with
  | none =>
    have hsame : withoutException record = record := by
      rw [withoutException, ← hexc]
    rw [hsame]
    exact iff_of_true (fun text => Iff.rfl) (Or.inl rfl)
  | some excInfo =>
    rw [or_iff_right (Option.some_ne_none excInfo)]
    cases hmessage : record.getMessage py with
    | error e =>
      have hwithout : (withoutException record).getMessage py = .error e := hmessage
      exact iff_of_true (sameText_of_error (format_of_getMessage_error hmessage formatter)
        (format_of_getMessage_error hwithout formatter)) (Or.inl ⟨e, rfl⟩)
    | ok message =>
      rw [or_iff_right (by rintro ⟨e, ⟨⟩⟩)]
      by_cases hjson : formatter.jsonMode = true
      · rw [if_pos hjson]
        exact sameText_withoutException_json hjson hmessage hexc
      · rw [if_neg hjson]
        exact sameText_withoutException_console (Bool.eq_false_iff.mpr hjson) hmessage hexc

/-- A worker's report of a crash. -/
def crashRecord : LogRecord String String where
  name := "steve.worker"
  msg := .str "Worker %s crashed"
  args := some "3"
  levelname := "ERROR"
  levelno := 40
  module := "worker"
  lineno := 100
  excInfo := some "ValueError: bad block"
  excText := none
  created := 0
  attributes := Dict.empty.setAll (otherKeys.map fun key => (key, .none))

/-- A shipped crash report comes out as JSON without its traceback. -/
theorem shipping_loses_traceback :
    ¬(SameText ((⟨true, true⟩ : StructuredLogFormatter).format plainInterpreter crashRecord)
        (shipped ⟨true, true⟩ plainInterpreter crashRecord) ∧
      ∀ prepared, prepare plainInterpreter crashRecord = .ok prepared →
        prepare plainInterpreter prepared = .ok prepared) := by
  rintro ⟨hsame, -⟩
  have hattributes : ∀ key value, crashRecord.attributes.get? key = some value →
      key ∈ otherKeys ∧ value = .none := by
    intro key value hvalue
    have hnodup : ((otherKeys.map fun key => (key, PyValue.none)).map Prod.fst).Nodup := by decide
    rw [crashRecord, Dict.get?_setAll _ hnodup, Dict.get?_empty, Option.or_none] at hvalue
    obtain ⟨other, hother, hentry⟩ := List.mem_map.mp (Dict.mem_of_find hvalue)
    rw [Prod.mk.injEq] at hentry
    exact ⟨hentry.1 ▸ hother, hentry.2.symm⟩
  rw [shipped_eq] at hsame
  obtain ⟨-, hunserializable | hrepeated⟩ :=
    (sameText_withoutException_json rfl rfl rfl).mp hsame
  · obtain ⟨key, value, hvalue, -, -, hnone⟩ := hunserializable
    obtain ⟨-, rfl⟩ := hattributes key value hvalue
    exact hnone ⟨"null", PyValue.dumps.eq_1⟩
  · obtain ⟨excInfo, value, -, hvalue, -⟩ := hrepeated
    exact absurd (hattributes "exception" value hvalue).1 (by decide)

end Output

end Steve.Logging
