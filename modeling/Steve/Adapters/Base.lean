import Mathlib.Data.Nat.Notation
import Steve.Exceptions
import Steve.Library.XorPattern

/-!
# The adapter contract

A direct buffer pairs an address and a size with a view of memory. The payload engine's
views name a region of its mapping; the bytes an adapter receives are those the view
shows at the moment of the call. An adapter is a state with the calls the worker makes on
it; each call answers or raises, and leaves a state either way.
-/

namespace Steve.Adapters

open Steve.Library

/-- A memory buffer handed to an adapter. -/
structure DirectBuffer (View : Type) where
  address : ℤ
  size : ℤ
  view : View
  deriving DecidableEq, Repr

/-- The resource a request addresses. -/
structure TargetDescriptor where
  endpointUri : String
  resourcePath : String
  deriving DecidableEq, Repr

/-- What an adapter declares it can do. -/
structure AdapterCapabilities where
  supportsDirectIo : Bool
  supportsAsyncCancellation : Bool
  maxConcurrentOps : ℕ
  nativeBlockSize : ℕ
  deriving DecidableEq, Repr

/-- The calls a worker makes on an adapter whose instances have states in `σ`.

`close` is `none` where the adapter class has no such method. -/
structure TargetAdapter (σ : Type) where
  construct : Except PyException σ
  initializeAdapter : σ → Except PyException Unit × σ
  capabilities : σ → Except PyException AdapterCapabilities
  write : σ → TargetDescriptor → ℕ → DirectBuffer (List Byte) → Except PyException ℕ × σ
  flush : σ → TargetDescriptor → Except PyException Unit × σ
  close : Option (σ → Except PyException Unit × σ)

/-- An adapter that accepts every write in full and has nothing to close. -/
def acceptingAdapter (maxConcurrentOps : ℕ) : TargetAdapter Unit where
  construct := .ok ()
  initializeAdapter := fun state => (.ok (), state)
  capabilities := fun _ => .ok ⟨false, false, maxConcurrentOps, 4096⟩
  write := fun state _ _ payload => (.ok payload.view.length, state)
  flush := fun state _ => (.ok (), state)
  close := none

end Steve.Adapters
