import Steve.Logging.Record

/-!
# The structured formatter

A record as one JSON object, with the attributes that are not a record's own among its
entries, or as a line for the console. Both modes append the traceback of a record that
carries exception info.
-/

namespace Steve.Logging

open Steve.Library

variable {A E : Type}

/-- A formatter and its two switches. -/
structure StructuredLogFormatter where
  jsonMode : Bool := false
  includeExtra : Bool := true

/-- The colour of a level. -/
def colors (levelno : ℤ) : String :=
  if levelno = 10 then "\x1b[36m"
  else if levelno = 20 then "\x1b[32m"
  else if levelno = 30 then "\x1b[33m"
  else if levelno = 40 then "\x1b[31m"
  else if levelno = 50 then "\x1b[1;31m"
  else ""

/-- The end of a coloured part. -/
def resetColor : String := "\x1b[0m"

/-- The attributes that the JSON object leaves out. -/
def excludedKeys : List String :=
  ["name", "msg", "args", "levelname", "levelno", "pathname", "filename", "module", "exc_info",
    "exc_text", "stack_info", "lineno", "funcName", "created", "msecs", "relativeCreated",
    "thread", "threadName", "processName", "process", "message"]

/-- `f"{text:<width}"`. -/
def padRight (width : ℕ) (text : String) : String :=
  text ++ String.ofList (List.replicate (width - text.length) ' ')

/-- The entries of the JSON object that every record has. -/
def coreEntries (py : Interpreter A E) (record : LogRecord A E) (message : String) :
    List (String × PyValue) :=
  [("timestamp", .str (py.isoformat record.created)), ("level", .str record.levelname),
    ("logger", .str record.name), ("message", .str message), ("module", .str record.module),
    ("line", .int record.lineno)]

/-- The JSON object of these entries alone. -/
def corePayload (py : Interpreter A E) (record : LogRecord A E) (message : String) :
    Dict String PyValue :=
  Dict.empty.setAll (coreEntries py record message)

/-- The attributes that are copied into the JSON object. -/
def copiedAttributes (record : LogRecord A E) : List (String × PyValue) :=
  record.attributes.entries.filter fun entry => entry.1 ∉ excludedKeys

namespace StructuredLogFormatter

/-- The JSON object without the exception. -/
def contextPayload (formatter : StructuredLogFormatter) (py : Interpreter A E)
    (record : LogRecord A E) (message : String) : Dict String PyValue :=
  if formatter.includeExtra then
    (corePayload py record message).setAll (copiedAttributes record)
  else corePayload py record message

/-- The JSON object of a record. -/
def logPayload (formatter : StructuredLogFormatter) (py : Interpreter A E)
    (record : LogRecord A E) : Except PyException (Dict String PyValue) := do
  let message ← record.getMessage py
  let payload := formatter.contextPayload py record message
  match record.excInfo with
  | none => .ok payload
  | some excInfo => .ok (payload.set "exception" (.str (py.formatException excInfo)))

end StructuredLogFormatter

/-- The tag of a context attribute, where the record has it. -/
def contextTag (py : Interpreter A E) (record : LogRecord A E) (key label : String) :
    Except PyException (List String) :=
  match record.attributes.get? key with
  | none => .ok []
  | some value => do
    let text ← py.str value
    .ok [label ++ "=" ++ text]

/-- The tags of a record. -/
def contextTags (py : Interpreter A E) (record : LogRecord A E) :
    Except PyException (List String) := do
  let node ← contextTag py record "node_id" "node"
  let core ← contextTag py record "core_id" "core"
  let run ← contextTag py record "run_id" "run"
  .ok (node ++ core ++ run)

/-- The console line of a record up to its exception. -/
def consoleLine (py : Interpreter A E) (record : LogRecord A E) (msg : String)
    (tags : List String) : String :=
  let color := colors record.levelno
  let reset := if color = "" then "" else resetColor
  let tagStr := if tags = [] then "" else " [" ++ ", ".intercalate tags ++ "]"
  let lvlStr := color ++ "[" ++ padRight 7 record.levelname ++ "]" ++ reset
  py.isoformat record.created ++ " " ++ lvlStr ++ " " ++ record.name ++ tagStr ++ ": " ++ msg

/-- A record for the console. -/
def formatConsole (py : Interpreter A E) (record : LogRecord A E) :
    Except PyException String := do
  let msg ← record.getMessage py
  let tags ← contextTags py record
  let formatted := consoleLine py record msg tags
  match record.excInfo with
  | none => .ok formatted
  | some excInfo => .ok (formatted ++ ("\n" ++ py.formatException excInfo))

/-- Format a record as JSON or for the console. -/
def StructuredLogFormatter.format (formatter : StructuredLogFormatter) (py : Interpreter A E)
    (record : LogRecord A E) : Except PyException String :=
  if formatter.jsonMode then do
    let payload ← formatter.logPayload py record
    (PyValue.dict payload.entries).dumps.mapError fun message => ⟨.other "TypeError", message⟩
  else formatConsole py record

section Payload

variable (py : Interpreter A E) (record : LogRecord A E) (message : String)

/-- The keys of the core entries are distinct. -/
theorem get?_corePayload (key : String) :
    (corePayload py record message).get? key =
      Dict.find key (coreEntries py record message) := by
  have hnodup : ((coreEntries py record message).map Prod.fst).Nodup := by
    change ["timestamp", "level", "logger", "message", "module", "line"].Nodup
    decide
  rw [corePayload, Dict.get?_setAll _ hnodup, Dict.get?_empty, Option.or_none]

/-- Every core entry has a JSON text. -/
theorem serializable_corePayload {key : String} {value : PyValue}
    (h : (corePayload py record message).get? key = some value) : value.Serializable := by
  rw [get?_corePayload] at h
  have hmem := Dict.mem_of_find h
  simp only [coreEntries, List.mem_cons, Prod.mk.injEq, List.not_mem_nil, or_false] at hmem
  obtain ⟨-, rfl⟩ | ⟨-, rfl⟩ | ⟨-, rfl⟩ | ⟨-, rfl⟩ | ⟨-, rfl⟩ | ⟨-, rfl⟩ := hmem
  all_goals first
    | exact PyValue.serializable_str _
    | exact PyValue.serializable_int _

/-- The JSON object looks a key up among the copied attributes first, then among the core
entries. -/
theorem get?_contextPayload (formatter : StructuredLogFormatter) (key : String) :
    (formatter.contextPayload py record message).get? key =
      if formatter.includeExtra = true ∧ key ∉ excludedKeys then
        (record.attributes.get? key).or ((corePayload py record message).get? key)
      else (corePayload py record message).get? key := by
  rw [StructuredLogFormatter.contextPayload]
  by_cases hextra : formatter.includeExtra = true
  · have hnodup : ((copiedAttributes record).map Prod.fst).Nodup :=
      (List.filter_sublist.map Prod.fst).nodup record.attributes.keysNodup
    have hfind : Dict.find key (copiedAttributes record) =
        if key ∉ excludedKeys then record.attributes.get? key else none := by
      rw [copiedAttributes, Dict.find_filter (fun key => decide (key ∉ excludedKeys))]
      by_cases hkey : key ∈ excludedKeys <;> simp [hkey, Dict.get?]
    rw [if_pos hextra, Dict.get?_setAll _ hnodup, hfind]
    by_cases hkey : key ∉ excludedKeys
    · rw [if_pos hkey, if_pos ⟨hextra, hkey⟩]
    · rw [if_neg hkey, if_neg fun hboth => hkey hboth.2, Option.none_or]
  · rw [if_neg hextra, if_neg fun hboth => hextra hboth.1]

/-- Before the exception is added, only an attribute can hold its key. -/
theorem get?_contextPayload_exception (formatter : StructuredLogFormatter) :
    (formatter.contextPayload py record message).get? "exception" =
      if formatter.includeExtra = true then record.attributes.get? "exception" else none := by
  have hcore : (corePayload py record message).get? "exception" = none := by
    rw [get?_corePayload]
    rfl
  have hkey : "exception" ∉ excludedKeys := by decide
  rw [get?_contextPayload, hcore, Option.or_none]
  simp only [hkey, not_false_eq_true, and_true]

/-- A value without a JSON text in the JSON object is a copied attribute's. -/
theorem unserializable_contextPayload_iff (formatter : StructuredLogFormatter) {key : String}
    {value : PyValue} (hvalue : ¬value.Serializable) :
    (formatter.contextPayload py record message).get? key = some value ↔
      (formatter.includeExtra = true ∧ key ∉ excludedKeys) ∧
        record.attributes.get? key = some value := by
  have hcore : (corePayload py record message).get? key ≠ some value := fun hcore =>
    hvalue (serializable_corePayload py record message hcore)
  rw [get?_contextPayload]
  by_cases hcopied : formatter.includeExtra = true ∧ key ∉ excludedKeys
  · rw [if_pos hcopied, and_iff_right hcopied, Option.or_eq_some_iff]
    exact or_iff_left fun hother => hcore hother.2
  · rw [if_neg hcopied]
    exact iff_of_false hcore fun hboth => hcopied hboth.1

/-- The JSON object of a record whose message can be formatted. -/
theorem logPayload_spec {formatter : StructuredLogFormatter} {object : Dict String PyValue}
    (h : formatter.logPayload py record = .ok object) :
    ∃ message, record.getMessage py = .ok message ∧
      (∀ key, key ≠ "exception" →
        object.get? key = (formatter.contextPayload py record message).get? key) ∧
      object.get? "exception" = (record.excInfo.map fun excInfo =>
        PyValue.str (py.formatException excInfo)).or
          ((formatter.contextPayload py record message).get? "exception") := by
  cases hmessage : record.getMessage py with
  | error e =>
    simp only [StructuredLogFormatter.logPayload, hmessage] at h
    cases h
  | ok message =>
    simp only [StructuredLogFormatter.logPayload, hmessage] at h
    refine ⟨message, rfl, ?_⟩
    cases hexc : record.excInfo with
    | none =>
      rw [hexc] at h
      obtain rfl := Except.ok.inj h
      exact ⟨fun key _ => rfl, rfl⟩
    | some excInfo =>
      rw [hexc] at h
      obtain rfl := Except.ok.inj h
      refine ⟨fun key hkey => ?_, ?_⟩
      · rw [Dict.get?_set, if_neg hkey.symm]
      · rw [Dict.get?_set, if_pos rfl]
        rfl

end Payload

end Steve.Logging
