import Steve.Logging.Formatter
import Mathlib.Data.List.Induction

/-!
# The contextual logger

A logger carries a context that its records get as extra attributes, under those of the
call. A child logger inherits the context and may override it. The logging package refuses
keys that a record already has, and the formatter copies every other key into the JSON
object. The object's own keys are not all among the refused ones: a context may overwrite
the time stamp, the level, the logger or the line, and may supply an exception.
-/

namespace Steve.Logging

open Steve.Library

variable {A E : Type}

/-- A logger with its context. -/
structure SteveLogger where
  name : String
  context : Dict String PyValue

namespace SteveLogger

/-- A logger with a copy of the given context. -/
def init (name : String) (context : Option (Dict String PyValue)) : SteveLogger where
  name := name
  context := context.getD Dict.empty

/-- A child whose context is merged with new attributes. -/
def withContext (logger : SteveLogger) (kwargs : Dict String PyValue) : SteveLogger where
  name := logger.name
  context := logger.context.update kwargs

/-- The context with the call's extra attributes merged in. -/
def mergedExtra (logger : SteveLogger) (extra : Option (Dict String PyValue)) :
    Dict String PyValue :=
  match extra with
  | none => logger.context
  | some extra => logger.context.update extra

/-- Hand a call to the logging package, which makes a record if the level is enabled. -/
def emit (levelname : String) (levelno : ℤ) (logger : SteveLogger) (isEnabledFor : ℤ → Bool)
    (call : LogCall A E) : Except PyException (Option (LogRecord A E)) :=
  if isEnabledFor levelno then
    (makeRecord logger.name levelname levelno call (logger.mergedExtra call.extra)).map some
  else .ok none

variable (logger : SteveLogger) (isEnabledFor : ℤ → Bool) (call : LogCall A E)

/-- Emit a debug message if enabled. -/
def debug : Except PyException (Option (LogRecord A E)) :=
  if isEnabledFor 10 then emit "DEBUG" 10 logger isEnabledFor call else .ok none

/-- Emit an info message if enabled. -/
def info : Except PyException (Option (LogRecord A E)) :=
  if isEnabledFor 20 then emit "INFO" 20 logger isEnabledFor call else .ok none

/-- Emit a warning. -/
def warning : Except PyException (Option (LogRecord A E)) :=
  emit "WARNING" 30 logger isEnabledFor call

/-- Emit an error. -/
def error : Except PyException (Option (LogRecord A E)) :=
  emit "ERROR" 40 logger isEnabledFor call

/-- Emit a critical message. -/
def critical : Except PyException (Option (LogRecord A E)) :=
  emit "CRITICAL" 50 logger isEnabledFor call

/-- Emit an error with the exception info passed or else the current one. -/
def exception (current : E) : Except PyException (Option (LogRecord A E)) :=
  emit "ERROR" 40 logger isEnabledFor { call with excInfo := some (call.excInfo.getD current) }

end SteveLogger

/-- The logging methods; the last one knows the exception being handled. -/
inductive LogMethod (E : Type)
  | debug
  | info
  | warning
  | error
  | critical
  | exception (current : E)

/-- Call a logging method. -/
def SteveLogger.log (logger : SteveLogger) (isEnabledFor : ℤ → Bool) (call : LogCall A E) :
    LogMethod E → Except PyException (Option (LogRecord A E))
  | .debug => logger.debug isEnabledFor call
  | .info => logger.info isEnabledFor call
  | .warning => logger.warning isEnabledFor call
  | .error => logger.error isEnabledFor call
  | .critical => logger.critical isEnabledFor call
  | .exception current => logger.exception isEnabledFor call current

/-- What was supplied under a key: by the call, else by the youngest child's context that has
it, else by the first logger's context. -/
def supplied (context : Option (Dict String PyValue)) (children : List (Dict String PyValue))
    (extra : Option (Dict String PyValue)) (key : String) : Option PyValue :=
  (extra.toList ++ children.reverse ++ context.toList).findSome? (·.get? key)

/-- The keys of the JSON object that hold a record's own values. -/
def coreKeys : List String := ["timestamp", "level", "logger", "message", "module", "line"]

/-- The JSON object holds the record's own values, its exception, and what else was supplied. -/
structure ContextKept (py : Interpreter A E) (record : LogRecord A E)
    (supplied : String → Option PyValue) (object : Dict String PyValue) : Prop where
  timestamp : object.get? "timestamp" = some (.str (py.isoformat record.created))
  level : object.get? "level" = some (.str record.levelname)
  logger : object.get? "logger" = some (.str record.name)
  message : ∃ message, record.getMessage py = .ok message ∧
    object.get? "message" = some (.str message)
  module : object.get? "module" = some (.str record.module)
  line : object.get? "line" = some (.int record.lineno)
  exception : object.get? "exception" =
    record.excInfo.map fun excInfo => .str (py.formatException excInfo)
  other : ∀ key value, key ∉ coreKeys → key ≠ "exception" → supplied key = some value →
    object.get? key = some value

/-- The supplied values agree with the record's own where a key of the object is not
refused, and no exception is supplied to a record without one; a formatter without extra
attributes is given none. -/
def ContextHarmless (formatter : StructuredLogFormatter) (py : Interpreter A E)
    (record : LogRecord A E) (supplied : String → Option PyValue) : Prop :=
  if formatter.includeExtra = true then
    (∀ value, supplied "timestamp" = some value → value = .str (py.isoformat record.created)) ∧
    (∀ value, supplied "level" = some value → value = .str record.levelname) ∧
    (∀ value, supplied "logger" = some value → value = .str record.name) ∧
    (∀ value, supplied "line" = some value → value = .int record.lineno) ∧
    (record.excInfo = none → supplied "exception" = none)
  else ∀ key value, supplied key = some value → key ∈ coreKeys ∨ key = "exception"

section Merging

/-- The context of a youngest child is looked up from the youngest on. -/
theorem get?_context (name : String) (context : Option (Dict String PyValue))
    (children : List (Dict String PyValue)) (key : String) :
    (children.foldl SteveLogger.withContext (SteveLogger.init name context)).context.get? key =
      (children.reverse ++ context.toList).findSome? (·.get? key) := by
  induction children using List.reverseRecOn with
  | nil => cases context <;> simp [SteveLogger.init]
  | append_singleton children kwargs ih =>
    rw [List.foldl_append, List.foldl_cons, List.foldl_nil, SteveLogger.withContext,
      Dict.get?_update, ih]
    cases hkey : kwargs.get? key <;> simp [hkey]

/-- The merged extra attributes are what was supplied. -/
theorem get?_mergedExtra (name : String) (context : Option (Dict String PyValue))
    (children : List (Dict String PyValue)) (extra : Option (Dict String PyValue))
    (key : String) :
    ((children.foldl SteveLogger.withContext (SteveLogger.init name context)).mergedExtra
      extra).get? key = supplied context children extra key := by
  cases extra with
  | none => exact get?_context name context children key
  | some extra =>
    rw [SteveLogger.mergedExtra, Dict.get?_update, get?_context, supplied]
    cases hkey : extra.get? key <;> simp [hkey]

end Merging

section Records

variable {logger : SteveLogger} {isEnabledFor : ℤ → Bool} {call : LogCall A E}
  {record : LogRecord A E}

/-- An emitted record is made by the logging package from the merged extra attributes. -/
theorem emit_spec {levelname : String} {levelno : ℤ}
    (h : SteveLogger.emit levelname levelno logger isEnabledFor call = .ok (some record)) :
    makeRecord logger.name levelname levelno call (logger.mergedExtra call.extra) = .ok record := by
  rw [SteveLogger.emit] at h
  split at h
  · cases hmade : makeRecord logger.name levelname levelno call (logger.mergedExtra call.extra) with
    | error e =>
      rw [hmade] at h
      cases h
    | ok made =>
      rw [hmade] at h
      rw [Option.some.inj (Except.ok.inj h)]
  · cases h

/-- Every logging method makes its record from the merged extra attributes. -/
theorem log_spec {method : LogMethod E}
    (h : logger.log isEnabledFor call method = .ok (some record)) :
    ∃ levelname levelno made, makeRecord logger.name levelname levelno made
      (logger.mergedExtra call.extra) = .ok record := by
  cases method with
  | debug =>
    rw [SteveLogger.log, SteveLogger.debug] at h
    split at h
    · exact ⟨_, _, call, emit_spec h⟩
    · cases h
  | info =>
    rw [SteveLogger.log, SteveLogger.info] at h
    split at h
    · exact ⟨_, _, call, emit_spec h⟩
    · cases h
  | warning => exact ⟨_, _, call, emit_spec h⟩
  | error => exact ⟨_, _, call, emit_spec h⟩
  | critical => exact ⟨_, _, call, emit_spec h⟩
  | exception current =>
    refine ⟨"ERROR", 40, { call with excInfo := some (call.excInfo.getD current) }, ?_⟩
    exact emit_spec h

/-- A record's attributes are what was supplied, and beneath that its own. -/
theorem log_attributes {name : String} {context : Option (Dict String PyValue)}
    {children : List (Dict String PyValue)} {method : LogMethod E}
    (h : (children.foldl SteveLogger.withContext (SteveLogger.init name context)).log isEnabledFor
      call method = .ok (some record)) :
    (∀ key, key ∉ otherKeys →
      record.attributes.get? key = supplied context children call.extra key) ∧
    ∀ key value, supplied context children call.extra key = some value →
      key ≠ "message" ∧ key ∉ fieldKeys ∧ key ∉ otherKeys := by
  obtain ⟨levelname, levelno, made, hmade⟩ := log_spec h
  obtain ⟨hattributes, haccepted⟩ := makeRecord_spec hmade
  constructor
  · intro key hkey
    rw [hattributes, get?_mergedExtra, if_neg hkey, Option.or_none]
  · intro key value hvalue
    rw [← get?_mergedExtra name] at hvalue
    exact haccepted key value hvalue

/-- The formatter leaves out only keys that the logging package refuses. -/
theorem refused_of_excluded {key : String} (h : key ∈ excludedKeys) :
    key = "message" ∨ key ∈ fieldKeys ∨ key ∈ otherKeys := by
  have hall : ∀ key ∈ excludedKeys, key = "message" ∨ key ∈ fieldKeys ∨ key ∈ otherKeys := by
    decide
  exact hall key h

end Records

section Integrity

variable {py : Interpreter A E} {formatter : StructuredLogFormatter} {record : LogRecord A E}
  {given : String → Option PyValue} {object : Dict String PyValue} {message : String}

/-- An own value under a value that may hide it shows exactly if the two agree. -/
theorem or_some_eq_some_iff {α : Type*} {first : Option α} {own : α} :
    first.or (some own) = some own ↔ ∀ value, first = some value → value = own := by
  cases first <;> simp

/-- How the JSON object of a record comes from what was given to the record. -/
structure ObjectOf (formatter : StructuredLogFormatter) (py : Interpreter A E)
    (record : LogRecord A E) (given : String → Option PyValue) (message : String)
    (object : Dict String PyValue) : Prop where
  text : record.getMessage py = .ok message
  attributes : ∀ key, key ∉ otherKeys → record.attributes.get? key = given key
  accepted : ∀ key value, given key = some value →
    key ≠ "message" ∧ key ∉ fieldKeys ∧ key ∉ otherKeys
  payload : ∀ key, key ≠ "exception" →
    object.get? key = (formatter.contextPayload py record message).get? key
  exception : object.get? "exception" = (record.excInfo.map fun excInfo =>
    PyValue.str (py.formatException excInfo)).or
      ((formatter.contextPayload py record message).get? "exception")

/-- A key that is refused always holds the record's own value. -/
theorem ObjectOf.hidden (h : ObjectOf formatter py record given message object) (key : String)
    {own : PyValue} (hexc : key ≠ "exception") (hkey : key ∈ excludedKeys)
    (hown : Dict.find key (coreEntries py record message) = some own) :
    object.get? key = some own := by
  rw [h.payload key hexc, get?_contextPayload, if_neg fun hboth => hboth.2 hkey,
    get?_corePayload, hown]

/-- A key that is not refused holds the given value, else the record's own. -/
theorem ObjectOf.visible (h : ObjectOf formatter py record given message object) {key : String}
    (hexc : key ≠ "exception") (hother : key ∉ otherKeys) (hkey : key ∉ excludedKeys) :
    object.get? key = if formatter.includeExtra = true then
      (given key).or (Dict.find key (coreEntries py record message))
      else Dict.find key (coreEntries py record message) := by
  rw [h.payload key hexc, get?_contextPayload, get?_corePayload, h.attributes key hother]
  simp only [hkey, not_false_eq_true, and_true]

/-- A core key that is not refused holds the record's own value unless another was given. -/
theorem ObjectOf.core_iff (h : ObjectOf formatter py record given message object) (key : String)
    {own : PyValue} (hexc : key ≠ "exception") (hother : key ∉ otherKeys)
    (hkey : key ∉ excludedKeys)
    (hown : Dict.find key (coreEntries py record message) = some own) :
    object.get? key = some own ↔
      (formatter.includeExtra = true → ∀ value, given key = some value → value = own) := by
  rw [h.visible hexc hother hkey, hown]
  by_cases hextra : formatter.includeExtra = true
  · rw [if_pos hextra, or_some_eq_some_iff]
    exact ⟨fun hown _ => hown, fun hown => hown hextra⟩
  · rw [if_neg hextra]
    exact iff_of_true rfl fun hsome => absurd hsome hextra

/-- The exception is the record's unless one was given to a record without. -/
theorem ObjectOf.exception_iff (h : ObjectOf formatter py record given message object) :
    object.get? "exception" =
        (record.excInfo.map fun excInfo => PyValue.str (py.formatException excInfo)) ↔
      (formatter.includeExtra = true → record.excInfo = none → given "exception" = none) := by
  rw [h.exception, get?_contextPayload_exception, h.attributes "exception" (by decide)]
  cases record.excInfo with
  | none => by_cases hextra : formatter.includeExtra = true <;> simp [hextra]
  | some excInfo => simp

/-- A given key is not among those that the formatter leaves out. -/
theorem ObjectOf.notMem_excludedKeys (h : ObjectOf formatter py record given message object)
    {key : String} {value : PyValue} (hvalue : given key = some value) : key ∉ excludedKeys := by
  intro hkey
  obtain ⟨hmessage, hfield, hother⟩ := h.accepted key value hvalue
  obtain hkey | hkey | hkey := refused_of_excluded hkey
  · exact hmessage hkey
  · exact hfield hkey
  · exact hother hkey

/-- Every other key holds its given value, unless the formatter includes none. -/
theorem ObjectOf.other_iff (h : ObjectOf formatter py record given message object) :
    (∀ key value, key ∉ coreKeys → key ≠ "exception" → given key = some value →
        object.get? key = some value) ↔
      (¬formatter.includeExtra = true →
        ∀ key value, given key = some value → key ∈ coreKeys ∨ key = "exception") := by
  have hnone : ∀ key, key ∉ coreKeys → Dict.find key (coreEntries py record message) = none :=
    fun key hkey => Dict.find_eq_none_of_notMem hkey
  by_cases hextra : formatter.includeExtra = true
  · refine iff_of_true (fun key value hkey hexc hvalue => ?_) fun hfalse => absurd hextra hfalse
    rw [h.visible hexc (h.accepted key value hvalue).2.2 (h.notMem_excludedKeys hvalue),
      if_pos hextra, hvalue, Option.some_or]
  · constructor
    · intro hheld _ key value hvalue
      by_contra hcore
      rw [not_or] at hcore
      have hkey := hheld key value hcore.1 hcore.2 hvalue
      rw [h.visible hcore.2 (h.accepted key value hvalue).2.2 (h.notMem_excludedKeys hvalue),
        if_neg hextra, hnone key hcore.1] at hkey
      cases hkey
    · intro hcore key value hkey hexc hvalue
      obtain hmem | rfl := hcore hextra key value hvalue
      · exact absurd hmem hkey
      · exact absurd rfl hexc

/-- The JSON object keeps a record's own values exactly if the given ones are harmless. -/
theorem ObjectOf.kept_iff (h : ObjectOf formatter py record given message object) :
    ContextKept py record given object ↔ ContextHarmless formatter py record given := by
  have htimestamp := h.core_iff "timestamp" (by decide) (by decide) (by decide) rfl
  have hlevel := h.core_iff "level" (by decide) (by decide) (by decide) rfl
  have hlogger := h.core_iff "logger" (by decide) (by decide) (by decide) rfl
  have hline := h.core_iff "line" (by decide) (by decide) (by decide) rfl
  have hmessage := h.hidden "message" (by decide) (by decide) rfl
  have hmodule := h.hidden "module" (by decide) (by decide) rfl
  rw [ContextHarmless]
  by_cases hextra : formatter.includeExtra = true
  · rw [if_pos hextra]
    constructor
    · intro hkept
      exact ⟨htimestamp.mp hkept.timestamp hextra, hlevel.mp hkept.level hextra,
        hlogger.mp hkept.logger hextra, hline.mp hkept.line hextra,
        h.exception_iff.mp hkept.exception hextra⟩
    · rintro ⟨htime, hlev, hlog, hlin, hexc⟩
      exact
        { timestamp := htimestamp.mpr fun _ => htime
          level := hlevel.mpr fun _ => hlev
          logger := hlogger.mpr fun _ => hlog
          message := ⟨message, h.text, hmessage⟩
          module := hmodule
          line := hline.mpr fun _ => hlin
          exception := h.exception_iff.mpr fun _ => hexc
          other := h.other_iff.mpr fun hnone => absurd hextra hnone }
  · rw [if_neg hextra]
    constructor
    · intro hkept
      exact h.other_iff.mp hkept.other hextra
    · intro hgiven
      exact
        { timestamp := htimestamp.mpr fun hsome => absurd hsome hextra
          level := hlevel.mpr fun hsome => absurd hsome hextra
          logger := hlogger.mpr fun hsome => absurd hsome hextra
          message := ⟨message, h.text, hmessage⟩
          module := hmodule
          line := hline.mpr fun hsome => absurd hsome hextra
          exception := h.exception_iff.mpr fun hsome => absurd hsome hextra
          other := h.other_iff.mpr fun _ => hgiven }

/-- Context leaves the JSON object of an emitted record as it should be exactly if it is
harmless. -/
theorem context_kept_iff {name : String} {context : Option (Dict String PyValue)}
    {children : List (Dict String PyValue)} {isEnabledFor : ℤ → Bool} {call : LogCall A E}
    {method : LogMethod E}
    (hrecord : (children.foldl SteveLogger.withContext (SteveLogger.init name context)).log
      isEnabledFor call method = .ok (some record))
    (hobject : formatter.logPayload py record = .ok object) :
    ContextKept py record (supplied context children call.extra) object ↔
      ContextHarmless formatter py record (supplied context children call.extra) := by
  obtain ⟨hattributes, haccepted⟩ := log_attributes hrecord
  obtain ⟨message, hmessage, hpayload, hexception⟩ := logPayload_spec py record hobject
  have hof : ObjectOf formatter py record (supplied context children call.extra) message object :=
    ⟨hmessage, hattributes, haccepted, hpayload, hexception⟩
  exact hof.kept_iff

/-- A worker's call to say that it is ready. -/
def readyCall : LogCall String String where
  msg := .str "Worker %s is ready"
  args := some "3"
  excInfo := none
  extra := none
  created := 0
  module := "worker"
  lineno := 100
  otherValue _ := .none

/-- The record of the call at level INFO with the given extra entries. -/
def readyRecord (entries : List (String × PyValue)) : LogRecord String String where
  name := "steve.worker"
  msg := readyCall.msg
  args := readyCall.args
  levelname := "INFO"
  levelno := 20
  module := readyCall.module
  lineno := readyCall.lineno
  excInfo := none
  excText := none
  created := readyCall.created
  attributes := (ownAttributes readyCall).setAll entries

/-- The JSON object of this record. -/
def readyObject (entries : List (String × PyValue)) : Dict String PyValue :=
  (⟨true, true⟩ : StructuredLogFormatter).contextPayload plainInterpreter (readyRecord entries)
    "Worker 3 is ready"

/-- A node's logger with a core's child keeps the record's own values. -/
theorem context_kept_node_and_core :
    ContextKept plainInterpreter (readyRecord [("node_id", .str "node-01"), ("core_id", .int 3)])
      (supplied (some (Dict.empty.set "node_id" (.str "node-01")))
        [Dict.empty.set "core_id" (.int 3)] readyCall.extra)
      (readyObject [("node_id", .str "node-01"), ("core_id", .int 3)]) := by
  have hrecord : ([Dict.empty.set "core_id" (.int 3)].foldl SteveLogger.withContext
      (SteveLogger.init "steve.worker" (some (Dict.empty.set "node_id" (.str "node-01"))))).log
      (fun _ => true) readyCall .info =
    .ok (some (readyRecord [("node_id", .str "node-01"), ("core_id", .int 3)])) := rfl
  have hobject : (⟨true, true⟩ : StructuredLogFormatter).logPayload plainInterpreter
      (readyRecord [("node_id", .str "node-01"), ("core_id", .int 3)]) =
    .ok (readyObject [("node_id", .str "node-01"), ("core_id", .int 3)]) := rfl
  refine (context_kept_iff hrecord hobject).mpr ?_
  rw [ContextHarmless, if_pos rfl]
  refine ⟨?_, ?_, ?_, ?_, fun _ => rfl⟩ <;> rintro value ⟨⟩

/-- A logger whose context names a level reports that one. -/
theorem context_forges_level :
    (SteveLogger.init "steve.worker" (some (Dict.empty.set "level" (.str "raid0")))).log
      (fun _ => true) readyCall .info = .ok (some (readyRecord [("level", .str "raid0")])) ∧
    (⟨true, true⟩ : StructuredLogFormatter).logPayload plainInterpreter
      (readyRecord [("level", .str "raid0")]) = .ok (readyObject [("level", .str "raid0")]) ∧
    ¬ContextKept plainInterpreter (readyRecord [("level", .str "raid0")])
      (supplied (some (Dict.empty.set "level" (.str "raid0"))) [] readyCall.extra)
      (readyObject [("level", .str "raid0")]) := by
  refine ⟨rfl, rfl, fun h => ?_⟩
  have hforged : (readyObject [("level", .str "raid0")]).get? "level" = some (.str "raid0") := rfl
  rw [h.level, Option.some.injEq, PyValue.str.injEq] at hforged
  exact absurd hforged (by decide)

end Integrity

end Steve.Logging
