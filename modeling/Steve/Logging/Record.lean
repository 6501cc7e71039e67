import Steve.Exceptions
import Steve.Library.Json
import Steve.Library.Text
import Mathlib.Data.Rat.Defs

/-!
# Log records

A log record as the logging package and the formatter use it, the message it stands for,
and how the logging package makes one from a logger's call. What the interpreter does with
arbitrary objects is a parameter: the text of a value, the `%` operator, the text of a
traceback, the ISO form of a time.
-/

namespace Steve.Logging

open Steve.Library

/-- The interpreter's operations on values, message arguments and exception infos. -/
structure Interpreter (A E : Type) where
  str : PyValue → Except PyException String
  percent : String → A → Except PyException String
  formatException : E → String
  isoformat : ℚ → String
  str_str : ∀ text, str (.str text) = .ok text

variable {A E : Type}

/-- A log record. Arguments and exception info are `none` where they count as false; the
attributes are those without a field here, in the order in which they were set. -/
structure LogRecord (A E : Type) where
  name : String
  msg : PyValue
  args : Option A
  levelname : String
  levelno : ℤ
  module : String
  lineno : ℤ
  excInfo : Option E
  excText : Option String
  created : ℚ
  attributes : Dict String PyValue

/-- The message with its arguments merged in. -/
def LogRecord.getMessage (py : Interpreter A E) (record : LogRecord A E) :
    Except PyException String := do
  let msg ← py.str record.msg
  match record.args with
  | none => .ok msg
  | some args => py.percent msg args

/-- The attributes that have a field of their own. -/
def fieldKeys : List String :=
  ["name", "msg", "args", "levelname", "levelno", "module", "lineno", "exc_info", "exc_text",
    "created"]

/-- The attributes that every record has besides. -/
def otherKeys : List String :=
  ["pathname", "filename", "stack_info", "funcName", "msecs", "relativeCreated", "thread",
    "threadName", "processName", "process", "taskName"]

/-- What a logging call supplies: its message, the values its caller's frame, its thread and
the clock give the record, and what was passed by keyword. -/
structure LogCall (A E : Type) where
  msg : PyValue
  args : Option A
  excInfo : Option E
  extra : Option (Dict String PyValue)
  created : ℚ
  module : String
  lineno : ℤ
  otherValue : String → PyValue

/-- Copy extra entries into a record's attributes, refusing a key that the record has. -/
def copyExtra : List (String × PyValue) → Dict String PyValue →
    Except PyException (Dict String PyValue)
  | [], attributes => .ok attributes
  | (key, value) :: rest, attributes =>
    if key ∈ ["message", "asctime"] ∨ key ∈ fieldKeys ∨ key ∈ attributes.keys then
      .error ⟨.other "KeyError", "Attempt to overwrite '" ++ key ++ "' in LogRecord"⟩
    else copyExtra rest (attributes.set key value)

/-- The attributes of a new record without a field. -/
def ownAttributes (call : LogCall A E) : Dict String PyValue :=
  Dict.empty.setAll (otherKeys.map fun key => (key, call.otherValue key))

/-- Make a record for a call with the given extra entries. -/
def makeRecord (name levelname : String) (levelno : ℤ) (call : LogCall A E)
    (extra : Dict String PyValue) : Except PyException (LogRecord A E) := do
  let attributes ← copyExtra extra.entries (ownAttributes call)
  .ok
    { name := name, msg := call.msg, args := call.args, levelname := levelname,
      levelno := levelno, module := call.module, lineno := call.lineno, excInfo := call.excInfo,
      excText := none, created := call.created, attributes := attributes }

section Extra

/-- A new record has a value under each of its own keys and under no other. -/
theorem get?_ownAttributes (call : LogCall A E) (key : String) :
    (ownAttributes call).get? key = if key ∈ otherKeys then some (call.otherValue key) else none := by
  have hkeys : (otherKeys.map fun key => (key, call.otherValue key)).map Prod.fst = otherKeys := by
    rw [List.map_map]
    exact List.map_id otherKeys
  have hnodup : otherKeys.Nodup := by decide
  rw [ownAttributes, Dict.get?_setAll _ (hkeys ▸ hnodup), Dict.get?_empty, Option.or_none]
  split
  · rename_i hkey
    have hmem : (key, call.otherValue key) ∈ otherKeys.map fun key => (key, call.otherValue key) :=
      List.mem_map_of_mem hkey
    exact Dict.find_of_mem (hkeys ▸ hnodup) hmem
  · rename_i hkey
    exact Dict.find_eq_none_of_notMem (hkeys ▸ hkey)

/-- Accepted extra entries are all assigned, and none of them has a key that is refused. -/
theorem copyExtra_spec {entries : List (String × PyValue)} {own attributes : Dict String PyValue}
    (h : copyExtra entries own = .ok attributes) :
    attributes = own.setAll entries ∧ ∀ key ∈ entries.map Prod.fst,
      key ≠ "message" ∧ key ∉ fieldKeys ∧ key ∉ own.keys := by
  induction entries generalizing own with
  | nil =>
    rw [copyExtra, Except.ok.injEq] at h
    exact ⟨h.symm, fun key hkey => nomatch hkey⟩
  | cons entry rest ih =>
    obtain ⟨key, value⟩ := entry
    rw [copyExtra] at h
    split at h
    · cases h
    · rename_i haccepted
      rw [not_or, not_or] at haccepted
      obtain ⟨hreserved, hfield, hown⟩ := haccepted
      obtain ⟨hattributes, hrest⟩ := ih h
      refine ⟨hattributes, ?_⟩
      rw [List.map_cons, List.forall_mem_cons]
      refine ⟨⟨fun hsame => hreserved (hsame ▸ List.mem_cons_self), hfield, hown⟩, ?_⟩
      intro other hother
      obtain ⟨hmessage, hfields, hkeys⟩ := hrest other hother
      exact ⟨hmessage, hfields, fun hmem =>
        hkeys ((Dict.mem_keys_set own key other value).mpr (Or.inr hmem))⟩

/-- A record's attributes are the extra entries, and beneath them its own; the two and the
fields share no key. -/
theorem makeRecord_spec {name levelname : String} {levelno : ℤ} {call : LogCall A E}
    {extra : Dict String PyValue} {record : LogRecord A E}
    (h : makeRecord name levelname levelno call extra = .ok record) :
    (∀ key, record.attributes.get? key =
      (extra.get? key).or (if key ∈ otherKeys then some (call.otherValue key) else none)) ∧
    ∀ key value, extra.get? key = some value →
      key ≠ "message" ∧ key ∉ fieldKeys ∧ key ∉ otherKeys := by
  cases hcopy : copyExtra extra.entries (ownAttributes call) with
  | error e =>
    simp only [makeRecord, hcopy] at h
    cases h
  | ok attributes =>
    simp only [makeRecord, hcopy] at h
    obtain rfl := Except.ok.inj h
    obtain ⟨rfl, haccepted⟩ := copyExtra_spec hcopy
    constructor
    · intro key
      change ((ownAttributes call).setAll extra.entries).get? key = _
      rw [Dict.get?_setAll _ extra.keysNodup, get?_ownAttributes]
      rfl
    · intro key value hvalue
      have hmem : (key, value) ∈ extra.entries := (extra.mem_entries_iff key value).mpr hvalue
      obtain ⟨hmessage, hfield, hown⟩ := haccepted key (List.mem_map.mpr ⟨_, hmem, rfl⟩)
      refine ⟨hmessage, hfield, fun hother => ?_⟩
      have hvalue := get?_ownAttributes call key
      rw [if_pos hother] at hvalue
      exact hown (List.mem_map.mpr ⟨_, ((ownAttributes call).mem_entries_iff key _).mpr hvalue, rfl⟩)

end Extra

/-- An interpreter for one string argument, exception infos given by their traceback, and a
clock that stands at its origin. Containers print as an ellipsis. -/
def plainInterpreter : Interpreter String String where
  str
    | .none => .ok "None"
    | .bool value => .ok (if value then "True" else "False")
    | .int value => .ok (toString value)
    | .float text => .ok text
    | .str text => .ok text
    | .object typeName => .ok ("<" ++ typeName ++ " object>")
    | _ => .ok "..."
  percent msg arg := .ok (String.ofList (replaceAll "%s".toList arg.toList msg.toList))
  formatException traceback := traceback
  isoformat _ := "1970-01-01T00:00:00+00:00"
  str_str _ := rfl

end Steve.Logging
