import Mathlib.Data.Int.Notation

/-!
# Exceptions

The domain exception classes that the modelled code raises, with their inheritance, and
the built-in Python exceptions that can reach it. An exception carries its class and its
message; an operating-system error carries its errno.
-/

namespace Steve

/-- The domain exception classes. -/
inductive SteveErrorClass
  | steveError
  | adapterError
  | hardwareIoError
  | deviceNotFoundError
  | storageExhaustedError
  | queueFullError
  | connectionTimeoutError
  | alignmentError
  | misalignedBufferError
  | misalignedOffsetError
  | payloadError
  | invalidEntropyError
  | orchestratorError
  | workerCrashError
  deriving DecidableEq, Repr

/-- The domain class a class inherits from. -/
def SteveErrorClass.parent : SteveErrorClass → Option SteveErrorClass
  | .steveError => none
  | .adapterError => some .steveError
  | .hardwareIoError => some .adapterError
  | .deviceNotFoundError => some .hardwareIoError
  | .storageExhaustedError => some .hardwareIoError
  | .queueFullError => some .adapterError
  | .connectionTimeoutError => some .adapterError
  | .alignmentError => some .steveError
  | .misalignedBufferError => some .alignmentError
  | .misalignedOffsetError => some .alignmentError
  | .payloadError => some .steveError
  | .invalidEntropyError => some .payloadError
  | .orchestratorError => some .steveError
  | .workerCrashError => some .orchestratorError

/-- An exception's class: a domain class or a built-in one. -/
inductive ExceptionClass
  | steve (cls : SteveErrorClass)
  | osError (errno : ℤ)
  | overflowError
  | notImplementedError
  | other (name : String)
  deriving DecidableEq, Repr

/-- A raised exception. -/
structure PyException where
  cls : ExceptionClass
  message : String
  deriving DecidableEq, Repr

/-- An exception of a domain class, or of one that inherits from it directly. -/
def PyException.IsA (e : PyException) (cls : SteveErrorClass) : Prop :=
  e.cls = .steve cls ∨ ∃ derived : SteveErrorClass, e.cls = .steve derived ∧ derived.parent = some cls

/-- The exceptions that count as alignment errors. -/
theorem PyException.isA_alignmentError_iff (e : PyException) :
    e.IsA .alignmentError ↔ e.cls = .steve .alignmentError ∨
      e.cls = .steve .misalignedBufferError ∨ e.cls = .steve .misalignedOffsetError := by
  constructor
  · intro h
    cases h with
    | inl hself => exact Or.inl hself
    | inr hderived =>
      obtain ⟨derived, hcls, hparent⟩ := hderived
      cases derived <;> simp_all [SteveErrorClass.parent]
  · intro h
    rcases h with hself | hbuffer | hoffset
    · exact Or.inl hself
    · exact Or.inr ⟨_, hbuffer, rfl⟩
    · exact Or.inr ⟨_, hoffset, rfl⟩

end Steve
