import Steve.Exceptions
import Steve.Library.Text

/-!
# Resolving an adapter class

The scheme of a target address picks the adapter class. Schemes are compared in lower
case; lowering acts on ASCII letters only, which suffices for the choice because no other
character lowers to a letter of a known scheme. The message on an unknown scheme quotes the
lowered scheme, so it differs from the source's where the scheme has capitals outside ASCII.
-/

namespace Steve.Adapters

open Steve.Library

/-- The adapter classes. -/
inductive AdapterClass
  | posixDirectIo
  | ioUring
  | s3
  | vector
  deriving DecidableEq, Repr

namespace AdapterFactory

/-- The lowered scheme of a target address. -/
def scheme (targetUri : String) : String :=
  String.ofList ((beforeFirst "://".toList targetUri.toList).map Char.toLower)

/-- The exception for a scheme without an adapter. -/
def unsupportedScheme (scheme : String) : PyException where
  cls := .notImplementedError
  message := s!"Unsupported target URI scheme '{scheme}'. " ++
    "Supported schemes: posix://, file://, iouring://, s3://, vector://"

/-- Resolve the adapter class from the address; Windows has no `io_uring`. -/
def getAdapterClass (isWindows : Bool) (targetUri : String) : Except PyException AdapterClass :=
  let scheme := scheme targetUri
  if scheme ∈ ["posix", "file"] then .ok .posixDirectIo
  else if scheme ∈ ["iouring", "io_uring"] then
    if isWindows then .ok .posixDirectIo else .ok .ioUring
  else if scheme = "s3" then .ok .s3
  else if scheme ∈ ["vector", "embedding"] then .ok .vector
  else .error (unsupportedScheme scheme)

end AdapterFactory

end Steve.Adapters
