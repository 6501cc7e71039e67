import Steve.Exceptions
import Steve.Library.XorPattern

/-!
# The operating system as the adapters call it

The system calls of the file-backed adapters, on a state of the operating system. Each
call answers or fails with an error number, and leaves a state either way; which of the two
it does, and what it moves, is up to the instance.
-/

namespace Steve.Adapters

open Steve.Library

/-- A failed system call; the message is the text of the raised `OSError`. -/
structure OsError where
  errno : ℤ
  message : String
  deriving DecidableEq, Repr

/-- The `OSError` a failed call raises. -/
def OsError.raised (e : OsError) : PyException := ⟨.osError e.errno, e.message⟩

/-- The system calls on states in `ω`. -/
structure OperatingSystem (ω : Type) where
  /-- whether a path's parent directory exists -/
  parentExists : ω → String → Bool
  /-- create a path's parent directory with its own parents -/
  mkdirParents : ω → String → Except OsError Unit × ω
  /-- open for reading and writing, creating the file, past the page cache where possible -/
  openFile : ω → String → Except OsError ℕ × ω
  /-- set a descriptor's cursor from the start of its file -/
  lseek : ω → ℕ → ℕ → Except OsError Unit × ω
  write : ω → ℕ → List Byte → Except OsError ℕ × ω
  read : ω → ℕ → ℤ → Except OsError (List Byte) × ω
  fsync : ω → ℕ → Except OsError Unit × ω
  closeFile : ω → ℕ → Except OsError Unit × ω
  strerror : ℤ → String

/-- `hex(value)`. -/
def pyHex (value : ℤ) : String :=
  let digits := String.ofList (Nat.toDigits 16 value.natAbs)
  if value < 0 then "-0x" ++ digits else "0x" ++ digits

/-- `view[: len(data)] = data`, which needs as much room as there is data. -/
def overlay (view data : List Byte) : Except PyException (List Byte) :=
  if data.length ≤ view.length then .ok (data ++ view.drop data.length)
  else .error ⟨.other "ValueError",
    "memoryview assignment: lvalue and rvalue have different structures"⟩

end Steve.Adapters
