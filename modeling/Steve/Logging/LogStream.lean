import Steve.Logging.Logger
import Steve.Library.ExpositionFormat
import Steve.Library.JsonRoundTrip
import Mathlib.Logic.Function.Basic

/-!
# The stream of a configured logger

Configuring the package's logger removes every handler it has and installs one that writes
to a stream. Records reach the handlers of the package's logger from every logger under it.
A record that cannot be formatted leaves its handler's stream alone, and is reported with a
traceback on the standard error stream, which may be one of the streams that are configured.

In JSON mode any other stream is a file of lines, one for each record that has a text, and
every line is read back as the object that the formatter built. This holds through any
sequence of configurations and logging calls, whatever the messages contain. Handlers that
the application hangs elsewhere, on the root logger, are not modelled.
-/

namespace Steve.Logging

open Steve.Library
open Steve.Library.Exposition (splitLines splitLines_flatMap)

variable {S A E : Type}

/-- A handler that writes to a stream. Handlers are told apart by their identity. -/
structure StreamHandler (S : Type) where
  identity : ℕ
  level : ℤ
  jsonMode : Bool
  stream : S
  deriving DecidableEq

/-- The formatter that a handler is given. -/
def StreamHandler.formatter (handler : StreamHandler S) : StructuredLogFormatter where
  jsonMode := handler.jsonMode

/-- The package's logger with its handlers, and what every stream holds. -/
structure LoggingState (S : Type) where
  level : ℤ
  handlers : List (StreamHandler S)
  handlersMade : ℕ
  written : S → String

/-- What the logging package was told elsewhere: the level of its root logger, the level up
to which everything is disabled, and where and how it reports a record that cannot be
formatted, if it has a standard error stream. -/
structure LoggingRoot (S A E : Type) where
  level : ℤ
  disable : ℤ
  stderr : Option S
  errorReport : LogRecord A E → PyException → String

/-- The arguments of a configuration. -/
structure LogConfig (S : Type) where
  level : ℤ := 20
  jsonMode : Bool := false
  stream : S

/-- Configure the package's logger with a single handler. -/
def configureLogging [DecidableEq S] (config : LogConfig S) (state : LoggingState S) :
    LoggingState S :=
  let remaining := state.handlers.foldl List.erase state.handlers
  let handler : StreamHandler S :=
    { identity := state.handlersMade, level := config.level, jsonMode := config.jsonMode,
      stream := config.stream }
  { state with
    level := config.level
    handlers := remaining ++ [handler]
    handlersMade := state.handlersMade + 1 }

/-- Whether a logger is the package's one or lies under it. -/
def isSteveLogger (name : String) : Bool := name = "steve" || "steve.".toList.isPrefixOf name.toList

/-- Whether the package's logger lets a level through. A level of zero is not set, and then
the root logger's counts. -/
def isEnabledFor (root : LoggingRoot S A E) (level levelno : ℤ) : Bool :=
  !decide (levelno ≤ root.disable) &&
    decide ((if level = 0 then root.level else level) ≤ levelno)

/-- What happens to the package's logger. -/
inductive LogEvent (S A E : Type)
  | configure (config : LogConfig S)
  | log (logger : SteveLogger) (method : LogMethod E) (call : LogCall A E)

section Emission

variable [DecidableEq S] (py : Interpreter A E) (root : LoggingRoot S A E)

/-- Report an exception raised while a record was emitted. -/
def handleError (record : LogRecord A E) (raised : PyException) (written : S → String) :
    S → String :=
  match root.stderr with
  | none => written
  | some stderr =>
    Function.update written stderr (written stderr ++ root.errorReport record raised)

/-- Write a formatted record and a line feed to the handler's stream. -/
def StreamHandler.emit (handler : StreamHandler S) (record : LogRecord A E)
    (written : S → String) : S → String :=
  match handler.formatter.format py record with
  | .error raised => handleError root record raised written
  | .ok msg => Function.update written handler.stream (written handler.stream ++ msg ++ "\n")

/-- Pass a record to every handler whose level it reaches. -/
def callHandlers (record : LogRecord A E) (state : LoggingState S) : LoggingState S :=
  { state with
    written := state.handlers.foldl (fun written handler =>
      if handler.level ≤ record.levelno then handler.emit py root record written else written)
      state.written }

/-- A configuration or a logging call. A call that raises, or that is not enabled, changes
nothing, and neither does one of a logger elsewhere. -/
def handleEvent (state : LoggingState S) :
    LogEvent S A E → LoggingState S
  | .configure config => configureLogging config state
  | .log logger method call =>
    if isSteveLogger logger.name then
      match logger.log (isEnabledFor root state.level) call method with
      | .ok (some record) => callHandlers py root record state
      | _ => state
    else state

/-- A run of the package's logger. -/
def runEvents (events : List (LogEvent S A E)) (state : LoggingState S) : LoggingState S :=
  events.foldl (handleEvent py root) state

end Emission

section Delivery

variable (py : Interpreter A E)

/-- The object of a record, where it has a JSON text. -/
def jsonObject (record : LogRecord A E) : Option (Dict String PyValue) :=
  match StructuredLogFormatter.logPayload { jsonMode := true } py record with
  | .error _ => none
  | .ok object =>
    match (PyValue.dict object.entries).dumps with
    | .error _ => none
    | .ok _ => some object

/-- The object of a logging call under a configuration's level. -/
def calledObject (root : LoggingRoot S A E) (level : ℤ) (logger : SteveLogger)
    (method : LogMethod E) (call : LogCall A E) : Option (Dict String PyValue) :=
  if isSteveLogger logger.name then
    match logger.log (isEnabledFor root level) call method with
    | .ok (some record) => jsonObject py record
    | _ => none
  else none

/-- The objects of the calls made while the latest configuration named the stream. -/
def delivered [DecidableEq S] (root : LoggingRoot S A E) (stream : S) :
    Option (LogConfig S) → List (LogEvent S A E) → List (Dict String PyValue)
  | _, [] => []
  | _, .configure config :: rest => delivered root stream (some config) rest
  | none, .log _ _ _ :: rest => delivered root stream none rest
  | some config, .log logger method call :: rest =>
    (if config.stream = stream then
      (calledObject py root config.level logger method call).toList else []) ++
      delivered root stream (some config) rest

end Delivery

/-- The values that a call gives its record are values of the language: floats with a
literal and objects with distinct keys. -/
structure CallWellFormed (logger : SteveLogger) (call : LogCall A E) : Prop where
  context : ∀ key value, logger.context.get? key = some value → value.WellFormed
  extra : ∀ extra, call.extra = some extra →
    ∀ key value, extra.get? key = some value → value.WellFormed
  own : ∀ key, (call.otherValue key).WellFormed

/-- The configurations of a stream are in JSON mode, and all values are well formed. -/
def JsonEvents (stream : S) (events : List (LogEvent S A E)) : Prop :=
  (∀ config, LogEvent.configure config ∈ events → config.stream = stream →
      config.jsonMode = true) ∧
    ∀ logger method call, LogEvent.log logger method call ∈ events → CallWellFormed logger call

section Objects

variable {py : Interpreter A E} {record : LogRecord A E}

/-- A record in JSON mode has the text of its object, or neither has one. -/
theorem format_cases (py : Interpreter A E) (record : LogRecord A E)
    {handler : StreamHandler S} (hjson : handler.jsonMode = true) :
    (∃ e, handler.formatter.format py record = .error e) ∧ jsonObject py record = none ∨
      ∃ object text, handler.formatter.format py record = .ok text ∧
        jsonObject py record = some object ∧ (PyValue.dict object.entries).dumps = .ok text ∧
          StructuredLogFormatter.logPayload { jsonMode := true } py record = .ok object := by
  have hformatter : handler.formatter = { jsonMode := true } := by
    rw [StreamHandler.formatter, hjson]
  rw [hformatter, StructuredLogFormatter.format, if_pos rfl]
  cases hobject : StructuredLogFormatter.logPayload { jsonMode := true } py record with
  | error e =>
    refine Or.inl ⟨⟨e, rfl⟩, ?_⟩
    simp only [jsonObject, hobject]
  | ok object =>
    cases htext : (PyValue.dict object.entries).dumps with
    | error message =>
      refine Or.inl ⟨⟨⟨.other "TypeError", message⟩, ?_⟩, ?_⟩
      · change Except.mapError _ (PyValue.dict object.entries).dumps = _
        rw [htext]
        rfl
      · simp only [jsonObject, hobject, htext]
    | ok text =>
      refine Or.inr ⟨object, text, ?_, ?_, htext, rfl⟩
      · change Except.mapError _ (PyValue.dict object.entries).dumps = _
        rw [htext]
        rfl
      · simp only [jsonObject, hobject, htext]

/-- The core entries are well formed. -/
theorem wellFormed_corePayload {message key : String} {value : PyValue}
    (h : (corePayload py record message).get? key = some value) : value.WellFormed := by
  rw [get?_corePayload] at h
  have hmem := Dict.mem_of_find h
  simp only [coreEntries, List.mem_cons, Prod.mk.injEq, List.not_mem_nil, or_false] at hmem
  obtain ⟨-, rfl⟩ | ⟨-, rfl⟩ | ⟨-, rfl⟩ | ⟨-, rfl⟩ | ⟨-, rfl⟩ | ⟨-, rfl⟩ := hmem
  all_goals simp [PyValue.WellFormed]

/-- The object of a record with well-formed attributes is well formed. -/
theorem wellFormed_logPayload {formatter : StructuredLogFormatter} {object : Dict String PyValue}
    (h : formatter.logPayload py record = .ok object)
    (hattributes : ∀ key value, record.attributes.get? key = some value → value.WellFormed) :
    (PyValue.dict object.entries).WellFormed := by
  obtain ⟨message, -, hother, hexception⟩ := logPayload_spec py record h
  have hcontext : ∀ key value, (formatter.contextPayload py record message).get? key = some value →
      value.WellFormed := by
    intro key value hvalue
    rw [get?_contextPayload] at hvalue
    split at hvalue
    · obtain hvalue | ⟨-, hvalue⟩ := Option.or_eq_some_iff.mp hvalue
      · exact hattributes key value hvalue
      · exact wellFormed_corePayload hvalue
    · exact wellFormed_corePayload hvalue
  rw [PyValue.WellFormed, PyValue.wellFormedEntries_iff]
  refine ⟨object.keysNodup, ?_⟩
  rintro ⟨key, value⟩ hentry
  have hvalue := (object.mem_entries_iff key value).mp hentry
  by_cases hkey : key = "exception"
  · rw [hkey, hexception] at hvalue
    obtain hvalue | ⟨-, hvalue⟩ := Option.or_eq_some_iff.mp hvalue
    · obtain ⟨excInfo, -, rfl⟩ := Option.map_eq_some_iff.mp hvalue
      simp [PyValue.WellFormed]
    · exact hcontext _ value hvalue
  · rw [hother key hkey] at hvalue
    exact hcontext key value hvalue

/-- An emitted record's level is enabled. -/
theorem emit_enabled {levelname : String} {levelno : ℤ} {logger : SteveLogger}
    {enabled : ℤ → Bool} {call : LogCall A E}
    (h : SteveLogger.emit levelname levelno logger enabled call = .ok (some record)) :
    enabled levelno = true ∧ record.levelno = levelno := by
  have hmade := emit_spec h
  rw [SteveLogger.emit] at h
  split at h
  · rename_i henabled
    refine ⟨henabled, ?_⟩
    rw [makeRecord] at hmade
    obtain ⟨attributes, -, hmade⟩ := PyValue.ok_of_bind hmade
    rw [← Except.ok.inj hmade]
  · cases h

/-- Every logging method makes its record from the merged extra attributes, at an enabled level
that is not negative. -/
theorem log_made {logger : SteveLogger} {enabled : ℤ → Bool} {call : LogCall A E}
    {method : LogMethod E} (h : logger.log enabled call method = .ok (some record)) :
    enabled record.levelno = true ∧ 0 ≤ record.levelno ∧ ∃ levelname levelno made,
      made.otherValue = call.otherValue ∧ makeRecord logger.name levelname levelno made
        (logger.mergedExtra call.extra) = .ok record := by
  have hemit : ∀ levelname levelno (made : LogCall A E), 0 ≤ levelno →
      made.otherValue = call.otherValue → made.extra = call.extra →
      SteveLogger.emit levelname levelno logger enabled made = .ok (some record) →
      enabled record.levelno = true ∧ 0 ≤ record.levelno ∧ ∃ levelname levelno made,
        made.otherValue = call.otherValue ∧ makeRecord logger.name levelname levelno made
          (logger.mergedExtra call.extra) = .ok record := by
    intro levelname levelno made hlevel hown hextra hmade
    obtain ⟨henabled, hlevelno⟩ := emit_enabled hmade
    have hrecord := emit_spec hmade
    rw [hextra] at hrecord
    rw [hlevelno]
    exact ⟨henabled, hlevel, levelname, levelno, made, hown, hrecord⟩
  cases method with
  | debug =>
    rw [SteveLogger.log, SteveLogger.debug] at h
    split at h
    · exact hemit _ _ call (by decide) rfl rfl h
    · cases h
  | info =>
    rw [SteveLogger.log, SteveLogger.info] at h
    split at h
    · exact hemit _ _ call (by decide) rfl rfl h
    · cases h
  | warning => exact hemit _ _ call (by decide) rfl rfl h
  | error => exact hemit _ _ call (by decide) rfl rfl h
  | critical => exact hemit _ _ call (by decide) rfl rfl h
  | exception current =>
    rw [SteveLogger.log, SteveLogger.exception] at h
    exact hemit "ERROR" 40 { call with excInfo := some (call.excInfo.getD current) } (by decide)
      rfl rfl h

/-- The attributes of an emitted record are well formed when the call's values are. -/
theorem CallWellFormed.attributes {logger : SteveLogger} {call : LogCall A E}
    (h : CallWellFormed logger call) {enabled : ℤ → Bool} {method : LogMethod E}
    (hlog : logger.log enabled call method = .ok (some record)) :
    ∀ key value, record.attributes.get? key = some value → value.WellFormed := by
  obtain ⟨-, -, levelname, levelno, made, hown, hmade⟩ := log_made hlog
  intro key value hvalue
  rw [(makeRecord_spec hmade).1, hown] at hvalue
  obtain hgiven | ⟨-, hvalue⟩ := Option.or_eq_some_iff.mp hvalue
  · cases hextra : call.extra with
    | none =>
      rw [hextra, SteveLogger.mergedExtra] at hgiven
      exact h.context key value hgiven
    | some extra =>
      rw [hextra, SteveLogger.mergedExtra, Dict.get?_update] at hgiven
      obtain hgiven | ⟨-, hgiven⟩ := Option.or_eq_some_iff.mp hgiven
      · exact h.extra extra hextra key value hgiven
      · exact h.context key value hgiven
  · split at hvalue
    · rw [← Option.some.inj hvalue]
      exact h.own key
    · cases hvalue

end Objects

section Configuration

variable [DecidableEq S]

/-- Removing every handler of a list leaves none. -/
theorem foldl_erase_self (handlers : List (StreamHandler S)) :
    handlers.foldl List.erase handlers = [] := by
  induction handlers with
  | nil => rfl
  | cons handler handlers ih => rw [List.foldl_cons, List.erase_cons_head, ih]

/-- After a configuration the logger has the one handler that it installed. -/
theorem configureLogging_handlers (config : LogConfig S) (state : LoggingState S) :
    (configureLogging config state).handlers =
      [⟨state.handlersMade, config.level, config.jsonMode, config.stream⟩] := by
  simp only [configureLogging, foldl_erase_self, List.nil_append]

end Configuration

section Runs

variable [DecidableEq S] {py : Interpreter A E} {root : LoggingRoot S A E} {stream : S}

/-- A text of lines that are read as objects. -/
def HoldsObjects (text : String) (objects : List (Dict String PyValue)) : Prop :=
  ∃ lines : List (List Char), text.toList = lines.flatMap (· ++ ['\n']) ∧
    (∀ line ∈ lines, '\n' ∉ line) ∧
    lines.map (fun line => loads (String.ofList line)) =
      objects.map fun object => some (.dict object.entries)

/-- The logger is as the latest configuration left it, if there was one, and the stream holds
the objects delivered so far. -/
structure StreamInv (stream : S) (current : Option (LogConfig S)) (state : LoggingState S)
    (objects : List (Dict String PyValue)) : Prop where
  unconfigured : current = none → ∀ handler ∈ state.handlers, handler.stream ≠ stream
  configured : ∀ config, current = some config → state.level = config.level ∧
    ∃ identity, state.handlers = [⟨identity, config.level, config.jsonMode, config.stream⟩]
  json : ∀ config, current = some config → config.stream = stream → config.jsonMode = true
  holds : HoldsObjects (state.written stream) objects

/-- One more line holds one more object. -/
theorem HoldsObjects.concat {text line : String} {objects : List (Dict String PyValue)}
    {object : Dict String PyValue} (h : HoldsObjects text objects)
    (hobject : (PyValue.dict object.entries).WellFormed)
    (hline : (PyValue.dict object.entries).dumps = .ok line) :
    HoldsObjects (text ++ line ++ "\n") (objects ++ [object]) := by
  obtain ⟨lines, htext, hfeeds, hread⟩ := h
  have hfeed : '\n' ∉ line.toList := by
    intro hmem
    obtain ⟨hlow, -⟩ := printable_dumps hobject hline '\n' hmem
    exact absurd hlow (by decide)
  refine ⟨lines ++ [line.toList], ?_, ?_, ?_⟩
  · rw [String.toList_append, String.toList_append, htext, List.flatMap_append, List.append_assoc]
    simp
  · exact List.forall_mem_append.mpr ⟨hfeeds, List.forall_mem_singleton.mpr hfeed⟩
  · rw [List.map_append, List.map_append, hread, List.map_singleton, List.map_singleton,
      String.ofList_toList, loads_dumps hobject hline]

/-- A reported exception leaves every stream but the standard error stream alone. -/
theorem handleError_other (herr : root.stderr ≠ some stream) (record : LogRecord A E)
    (raised : PyException) (written : S → String) :
    handleError root record raised written stream = written stream := by
  rw [handleError]
  cases hstderr : root.stderr with
  | none => rfl
  | some stderr =>
    apply Function.update_of_ne
    intro hsame
    exact herr (by rw [hstderr, hsame])

/-- Handlers of other streams leave a stream alone. -/
theorem callHandlers_other (herr : root.stderr ≠ some stream) (record : LogRecord A E)
    (state : LoggingState S) (h : ∀ handler ∈ state.handlers, handler.stream ≠ stream) :
    (callHandlers py root record state).written stream = state.written stream := by
  have hemit : ∀ handler : StreamHandler S, handler.stream ≠ stream → ∀ written : S → String,
      handler.emit py root record written stream = written stream := by
    intro handler hother written
    rw [StreamHandler.emit]
    cases handler.formatter.format py record with
    | error raised => exact handleError_other herr record raised written
    | ok msg => exact Function.update_of_ne hother.symm _ _
  have hall : ∀ (handlers : List (StreamHandler S)) (written : S → String),
      (∀ handler ∈ handlers, handler.stream ≠ stream) →
      handlers.foldl (fun written handler => if handler.level ≤ record.levelno then
        handler.emit py root record written else written) written stream = written stream := by
    intro handlers
    induction handlers with
    | nil => exact fun written _ => rfl
    | cons handler handlers ih =>
      intro written hothers
      rw [List.forall_mem_cons] at hothers
      rw [List.foldl_cons, ih _ hothers.2]
      split
      · exact hemit handler hothers.1 written
      · rfl
  exact hall state.handlers state.written h

/-- A record of the configured logger goes to its handler's stream, if it has an object. -/
theorem callHandlers_configured (herr : root.stderr ≠ some stream) {config : LogConfig S}
    {record : LogRecord A E} {state : LoggingState S} {objects : List (Dict String PyValue)}
    (h : StreamInv stream (some config) state objects) (hstream : config.stream = stream)
    (hlevel : config.level ≤ record.levelno)
    (hvalues : ∀ key value, record.attributes.get? key = some value → value.WellFormed) :
    HoldsObjects ((callHandlers py root record state).written stream)
      (objects ++ (jsonObject py record).toList) := by
  obtain ⟨-, identity, hhandlers⟩ := h.configured config rfl
  rw [h.json config rfl hstream] at hhandlers
  simp only [callHandlers, hhandlers, List.foldl_cons, List.foldl_nil, if_pos hlevel]
  rw [StreamHandler.emit]
  obtain ⟨⟨e, herror⟩, hnone⟩ | ⟨object, text, htext, hobject, hdumps, hpayload⟩ :=
    format_cases py record (rfl : (⟨identity, config.level, true, config.stream⟩ :
      StreamHandler S).jsonMode = true)
  · rw [herror, hnone]
    simp only [handleError_other herr, Option.toList_none, List.append_nil]
    exact h.holds
  · rw [htext, hobject, hstream]
    simp only [Function.update_self]
    exact h.holds.concat (wellFormed_logPayload hpayload hvalues) hdumps

/-- Calling the handlers changes nothing but the streams. -/
theorem StreamInv.callHandlers {current : Option (LogConfig S)} {record : LogRecord A E}
    {state : LoggingState S} {objects objects' : List (Dict String PyValue)}
    (h : StreamInv stream current state objects)
    (hholds : HoldsObjects ((callHandlers py root record state).written stream) objects') :
    StreamInv stream current (Logging.callHandlers py root record state) objects' :=
  ⟨h.unconfigured, h.configured, h.json, hholds⟩

omit [DecidableEq S] in
/-- An enabled level that is not negative reaches the handler's level. -/
theorem level_le_of_enabled {level levelno : ℤ} (h : isEnabledFor root level levelno = true)
    (hlevelno : 0 ≤ levelno) : level ≤ levelno := by
  simp only [isEnabledFor, Bool.and_eq_true, decide_eq_true_eq] at h
  obtain ⟨-, hlevel⟩ := h
  split at hlevel
  · rename_i hzero
    rw [hzero]
    exact hlevelno
  · exact hlevel

/-- A logging call delivers its object while the stream is configured. -/
theorem StreamInv.log (herr : root.stderr ≠ some stream) {config : LogConfig S}
    {state : LoggingState S} {objects : List (Dict String PyValue)}
    (h : StreamInv stream (some config) state objects)
    {logger : SteveLogger} {method : LogMethod E} {call : LogCall A E}
    (hcall : CallWellFormed logger call) :
    StreamInv stream (some config) (handleEvent py root state (.log logger method call))
      (objects ++ if config.stream = stream then
        (calledObject py root config.level logger method call).toList else []) := by
  have hlevel := (h.configured config rfl).1
  have hnothing : StreamInv stream (some config) state (objects ++ if config.stream = stream then
      (none : Option (Dict String PyValue)).toList else []) := by
    simpa using h
  rw [handleEvent, calledObject, hlevel]
  by_cases hsteve : isSteveLogger logger.name = true
  · rw [if_pos hsteve, if_pos hsteve]
    cases hlog : logger.log (isEnabledFor root config.level) call method with
    | error e => exact hnothing
    | ok made =>
      cases made with
      | none => exact hnothing
      | some record =>
        obtain ⟨henabled, hpositive, -⟩ := log_made hlog
        by_cases hstream : config.stream = stream
        · rw [if_pos hstream]
          exact h.callHandlers (callHandlers_configured herr h hstream
            (level_le_of_enabled henabled hpositive) (hcall.attributes hlog))
        · rw [if_neg hstream, List.append_nil]
          apply h.callHandlers
          rw [callHandlers_other herr record state]
          · exact h.holds
          · obtain ⟨-, identity, hhandlers⟩ := h.configured config rfl
            rw [hhandlers]
            exact List.forall_mem_singleton.mpr hstream
  · rw [if_neg hsteve, if_neg hsteve]
    exact hnothing

/-- A logging call before any configuration delivers nothing to the stream. -/
theorem StreamInv.log_unconfigured (herr : root.stderr ≠ some stream)
    {state : LoggingState S} {objects : List (Dict String PyValue)}
    (h : StreamInv stream none state objects) (logger : SteveLogger) (method : LogMethod E)
    (call : LogCall A E) :
    StreamInv stream none (handleEvent py root state (.log logger method call)) objects := by
  rw [handleEvent]
  split
  · split
    · apply h.callHandlers
      rw [callHandlers_other herr _ state (h.unconfigured rfl)]
      exact h.holds
    · exact h
  · exact h

/-- A configuration leaves the stream alone. -/
theorem StreamInv.configure {current : Option (LogConfig S)} {state : LoggingState S}
    {objects : List (Dict String PyValue)} (h : StreamInv stream current state objects)
    {config : LogConfig S} (hjson : config.stream = stream → config.jsonMode = true) :
    StreamInv stream (some config) (configureLogging config state) objects where
  unconfigured hnone := nomatch hnone
  configured other hother := by
    cases hother
    exact ⟨rfl, state.handlersMade, configureLogging_handlers config state⟩
  json other hother := by
    cases hother
    exact hjson
  holds := h.holds

/-- Over a run the stream receives the delivered objects. -/
theorem runEvents_inv (herr : root.stderr ≠ some stream) {events : List (LogEvent S A E)}
    (hevents : JsonEvents stream events)
    {current : Option (LogConfig S)} {state : LoggingState S}
    {objects : List (Dict String PyValue)} (h : StreamInv stream current state objects) :
    HoldsObjects ((runEvents py root events state).written stream)
      (objects ++ delivered py root stream current events) := by
  induction events generalizing current state objects with
  | nil =>
    rw [delivered, List.append_nil]
    exact h.holds
  | cons event events ih =>
    have hlater : JsonEvents stream events :=
      ⟨fun config hconfig => hevents.1 config (List.mem_cons_of_mem _ hconfig),
        fun logger method call hcall =>
          hevents.2 logger method call (List.mem_cons_of_mem _ hcall)⟩
    cases event with
    | configure config =>
      rw [delivered]
      exact ih hlater (h.configure (hevents.1 config List.mem_cons_self))
    | log logger method call =>
      cases current with
      | none =>
        rw [delivered]
        exact ih hlater (h.log_unconfigured herr logger method call)
      | some config =>
        rw [delivered, ← List.append_assoc]
        exact ih hlater (h.log herr (hevents.2 logger method call List.mem_cons_self))

end Runs

/-- Whatever is logged and configured, a stream that is only ever configured in JSON mode and
is not the standard error stream consists of lines, one for each delivered object in order,
and every line is read back as its object. -/
theorem json_stream_reads_back [DecidableEq S] (py : Interpreter A E)
    (root : LoggingRoot S A E) (stream : S) (herr : root.stderr ≠ some stream)
    (events : List (LogEvent S A E)) (state : LoggingState S)
    (hother : ∀ handler ∈ state.handlers, handler.stream ≠ stream)
    (hempty : state.written stream = "") (hevents : JsonEvents stream events) :
    ∃ lines, splitLines ((runEvents py root events state).written stream).toList = some lines ∧
      lines.map (fun line => loads (String.ofList line)) =
        (delivered py root stream none events).map fun object => some (.dict object.entries) := by
  have hinit : StreamInv stream none state [] :=
    ⟨fun _ => hother, fun _ hnone => (nomatch hnone), fun _ hnone => (nomatch hnone),
      ⟨[], by rw [hempty]; rfl, List.forall_mem_nil _, rfl⟩⟩
  have hruns : HoldsObjects ((runEvents py root events state).written stream)
      ([] ++ delivered py root stream none events) := runEvents_inv herr hevents hinit
  obtain ⟨lines, htext, hfeeds, hread⟩ := hruns
  exact ⟨lines, by rw [htext, splitLines_flatMap hfeeds], hread⟩

/-- A message with a line feed. -/
def feedCall : LogCall String String where
  msg := .str "first\nsecond"
  args := none
  excInfo := none
  extra := none
  created := 0
  module := "worker"
  lineno := 7
  otherValue _ := .none

/-- The same call with an attribute that has no JSON text. -/
def lockCall : LogCall String String :=
  { feedCall with extra := some (Dict.empty.set "guard" (.object "lock")) }

/-- A configuration in JSON mode and three calls: one carries a core, one is below the level,
and one cannot be formatted. -/
def feedEvents : List (LogEvent ℕ String String) :=
  [.configure { jsonMode := true, stream := 0 },
    .log (SteveLogger.init "steve.core" (some (Dict.empty.set "core_id" (.int 3)))) .warning
      feedCall,
    .log (SteveLogger.init "steve" none) .debug feedCall,
    .log (SteveLogger.init "steve" none) .error lockCall]

/-- Logging that reports on another stream. -/
def feedRoot : LoggingRoot ℕ String String where
  level := 30
  disable := 0
  stderr := some 1
  errorReport := fun _ raised => "--- Logging error ---\n" ++ raised.message ++ "\n"

/-- The calls of these events pass values of the language. -/
theorem feedEvents_json : JsonEvents 0 feedEvents := by
  have hone : ∀ (given : String) (value : PyValue), value.WellFormed → ∀ key found,
      (Dict.empty.set given value).get? key = some found → found.WellFormed := by
    intro given value hvalue key found hfound
    rw [Dict.get?_set] at hfound
    split at hfound
    · rw [← Option.some.inj hfound]
      exact hvalue
    · cases hfound
  have hnone : ∀ key value, (SteveLogger.init "steve" none).context.get? key = some value →
      value.WellFormed := by
    intro key value hvalue
    cases hvalue
  have hown : ∀ key, (feedCall.otherValue key).WellFormed := by
    intro key
    simp [feedCall, PyValue.WellFormed]
  have hfeed : ∀ logger : SteveLogger, (∀ key value, logger.context.get? key = some value →
      value.WellFormed) → CallWellFormed logger feedCall := by
    intro logger hcontext
    refine ⟨hcontext, ?_, hown⟩
    intro extra hextra
    cases hextra
  constructor
  · intro config hconfig _
    simp only [feedEvents, List.mem_cons, List.not_mem_nil, or_false, reduceCtorEq,
      LogEvent.configure.injEq] at hconfig
    rw [hconfig]
  · intro logger method call hevent
    simp only [feedEvents, List.mem_cons, List.not_mem_nil, or_false, reduceCtorEq, false_or,
      LogEvent.log.injEq] at hevent
    obtain ⟨rfl, -, rfl⟩ | ⟨rfl, -, rfl⟩ | ⟨rfl, -, rfl⟩ := hevent
    · exact hfeed _ (hone "core_id" (.int 3) (by simp [PyValue.WellFormed]))
    · exact hfeed _ hnone
    · refine ⟨hnone, ?_, hown⟩
      intro extra hextra
      cases hextra
      exact hone "guard" (.object "lock") (by simp [PyValue.WellFormed])

/-- The configured stream of that run. -/
theorem json_stream_reads_back_feed :
    ∃ lines, splitLines ((runEvents plainInterpreter feedRoot feedEvents
        ⟨30, [], 0, fun _ => ""⟩).written 0).toList = some lines ∧
      lines.map (fun line => loads (String.ofList line)) =
        (delivered plainInterpreter feedRoot 0 none feedEvents).map fun object =>
          some (.dict object.entries) :=
  json_stream_reads_back plainInterpreter feedRoot 0 (by decide) feedEvents _
    (List.forall_mem_nil _) rfl feedEvents_json

end Steve.Logging
