import Steve.Adapters.Base
import Steve.Adapters.Os
import Steve.Library.Dict

/-!
# The POSIX direct I/O adapter

Every write and read checks the buffer's address, gets a cached or newly opened descriptor,
seeks, and makes one system call, whose byte count is the answer. A failed system call is
raised as the domain exception of its error number.
-/

namespace Steve.Adapters

open Steve.Library

/-- The system calls, with the two ways of reading into a buffer of a given size: the bytes
each of them moves. -/
structure PosixSystem (ω : Type) extends OperatingSystem ω where
  /-- a vectored read into one buffer, on platforms that have it -/
  readv : Option (ω → ℕ → ℕ → Except OsError (List Byte) × ω)
  /-- an unbuffered file object's read, which may find nothing ready -/
  readinto : ω → ℕ → ℕ → Except OsError (Option (List Byte)) × ω

/-- `SteveError.from_errno`: the domain exception of an error number. -/
def fromErrno (e : OsError) (context : String) : PyException :=
  let reason := e.message
  let detail := if context = "" then reason else s!"{context}: {reason}"
  let errno := e.errno
  if errno = 22 then
    ⟨.steve .misalignedOffsetError, s!"Invalid argument or misaligned I/O boundary: {detail}"⟩
  else if errno = 28 then
    ⟨.steve .storageExhaustedError,
      s!"Storage capacity exhausted (no space left): {detail}"⟩
  else if errno = 5 ∨ errno = 77 then
    ⟨.steve .hardwareIoError, s!"Hardware/Device I/O fault encountered: {detail}"⟩
  else if errno = 13 ∨ errno = 1 then
    ⟨.steve .adapterError, s!"Permission denied accessing target storage resource: {detail}"⟩
  else if errno = 2 ∨ errno = 6 ∨ errno = 19 then
    ⟨.steve .deviceNotFoundError, s!"Target storage device or file not found: {detail}"⟩
  else if errno = 110 ∨ errno = 111 ∨ errno = 113 then
    ⟨.steve .connectionTimeoutError, s!"Network transport connection timeout: {detail}"⟩
  else
    ⟨.steve .hardwareIoError, s!"Operating system I/O error (errno={errno}): {detail}"⟩

/-- `DirectBuffer.assert_alignment`: the exception of a misaligned address, if it is one. -/
def assertAlignment (buffer : DirectBuffer (List Byte)) (alignment : ℕ) : Option PyException :=
  if buffer.address % alignment ≠ 0 then
    let address := pyHex buffer.address
    some ⟨.steve .misalignedBufferError,
      s!"DirectBuffer at address {address} violates {alignment}-byte alignment"⟩
  else none

/-- A buffer after a read has moved bytes into its beginning. -/
def filled (view data : List Byte) : List Byte := data ++ view.drop data.length

/-- The adapter's state, with that of the operating system under it. A cached file object is
known by its descriptor, which it does not own. -/
structure PosixDirectIOAdapter (ω : Type) where
  fds : Dict String ℕ
  fileIos : Dict String ℕ
  os : ω

namespace PosixDirectIOAdapter

variable {ω : Type} (system : PosixSystem ω)

/-- A new adapter. -/
def init (os : ω) : PosixDirectIOAdapter ω := ⟨Dict.empty, Dict.empty, os⟩

/-- Create the parent directory of a path unless it exists. -/
def ensureParent (path : String) (os : ω) : Except OsError Unit × ω :=
  if system.parentExists os path then (.ok (), os) else system.mkdirParents os path

/-- The cached descriptor of a resource, or a newly opened one. -/
def getOrOpenFd (target : TargetDescriptor) (adapter : PosixDirectIOAdapter ω) :
    Except PyException ℕ × PosixDirectIOAdapter ω :=
  let path := target.resourcePath
  match adapter.fds.get? path with
  | some fd => (.ok fd, adapter)
  | none =>
    match ensureParent system path adapter.os with
    | (.error e, os) => (.error e.raised, { adapter with os := os })
    | (.ok (), os) =>
      match system.openFile os path with
      | (.error e, os) =>
        (.error (fromErrno e s!"Failed to open target {path}"), { adapter with os := os })
      | (.ok fd, os) =>
        (.ok fd, ⟨adapter.fds.set path fd, adapter.fileIos.set path fd, os⟩)

/-- `write`. -/
def write (target : TargetDescriptor) (offset : ℕ) (payload : DirectBuffer (List Byte))
    (adapter : PosixDirectIOAdapter ω) : Except PyException ℕ × PosixDirectIOAdapter ω :=
  match assertAlignment payload 4096 with
  | some e => (.error e, adapter)
  | none =>
    match adapter.getOrOpenFd system target with
    | (.error e, adapter) => (.error e, adapter)
    | (.ok fd, adapter) =>
      let context := s!"POSIX Direct I/O write failed at offset {offset}"
      match system.lseek adapter.os fd offset with
      | (.error e, os) => (.error (fromErrno e context), { adapter with os := os })
      | (.ok (), os) =>
        match system.write os fd payload.view with
        | (.error e, os) => (.error (fromErrno e context), { adapter with os := os })
        | (.ok written, os) => (.ok written, { adapter with os := os })

/-- The system calls of a read: the bytes moved, by the vectored call where there is one. -/
def transferInto (path : String) (fd offset size : ℕ) (adapter : PosixDirectIOAdapter ω) :
    Except PyException (List Byte) × ω :=
  let context := s!"POSIX Direct I/O read failed at offset {offset}"
  match system.readv with
  | some readv =>
    match system.lseek adapter.os fd offset with
    | (.error e, os) => (.error (fromErrno e context), os)
    | (.ok (), os) =>
      match readv os fd size with
      | (.error e, os) => (.error (fromErrno e context), os)
      | (.ok data, os) => (.ok data, os)
  | none =>
    match adapter.fileIos.get? path with
    | none => (.error ⟨.other "KeyError", s!"'{path}'"⟩, adapter.os)
    | some file =>
      match system.lseek adapter.os file offset with
      | (.error e, os) => (.error (fromErrno e context), os)
      | (.ok (), os) =>
        match system.readinto os file size with
        | (.error e, os) => (.error (fromErrno e context), os)
        | (.ok data, os) => (.ok (data.getD []), os)

/-- `read`, with the buffer after it. -/
def read (target : TargetDescriptor) (offset : ℕ) (buffer : DirectBuffer (List Byte))
    (adapter : PosixDirectIOAdapter ω) :
    Except PyException ℕ × List Byte × PosixDirectIOAdapter ω :=
  match assertAlignment buffer 4096 with
  | some e => (.error e, buffer.view, adapter)
  | none =>
    match adapter.getOrOpenFd system target with
    | (.error e, adapter) => (.error e, buffer.view, adapter)
    | (.ok fd, adapter) =>
      match adapter.transferInto system target.resourcePath fd offset buffer.view.length with
      | (.error e, os) => (.error e, buffer.view, { adapter with os := os })
      | (.ok data, os) => (.ok data.length, filled buffer.view data, { adapter with os := os })

/-- `flush`: sync the resource if it is open. -/
def flush (target : TargetDescriptor) (adapter : PosixDirectIOAdapter ω) :
    Except PyException Unit × PosixDirectIOAdapter ω :=
  let path := target.resourcePath
  match adapter.fds.get? path with
  | none => (.ok (), adapter)
  | some fd =>
    match system.fsync adapter.os fd with
    | (.error e, os) =>
      (.error (fromErrno e s!"POSIX flush failed for {path}"), { adapter with os := os })
    | (.ok (), os) => (.ok (), { adapter with os := os })

/-- `close`: drop the file objects, which leave their descriptors open, and close every
cached descriptor, dropping failures. -/
def close (adapter : PosixDirectIOAdapter ω) : PosixDirectIOAdapter ω where
  fds := Dict.empty
  fileIos := Dict.empty
  os := adapter.fds.values.foldl (fun os fd => (system.closeFile os fd).2) adapter.os

end PosixDirectIOAdapter

/-- The adapter class as a worker uses it, on a state of the operating system. -/
def posixTargetAdapter {ω : Type} (system : PosixSystem ω) (os : ω) :
    TargetAdapter (PosixDirectIOAdapter ω) where
  construct := .ok (PosixDirectIOAdapter.init os)
  initializeAdapter := fun adapter => (.ok (), adapter)
  capabilities := fun _ => .ok ⟨true, false, 64, 4096⟩
  write := fun adapter target offset payload => adapter.write system target offset payload
  flush := fun adapter target => adapter.flush system target
  close := some fun adapter => (.ok (), adapter.close system)

end Steve.Adapters
