import Steve.Adapters.Base
import Steve.Adapters.Os
import Steve.Adapters.Ring
import Steve.Library.Dict

/-!
# The io_uring adapter

Every write and read checks alignment, gets a descriptor, prepares one request, submits,
waits for a completion and marks it seen. What the kernel answers at each step of one call
is given with the call. Without a ring the adapter falls back to plain system calls.
-/

namespace Steve.Adapters

open Steve.Library

/-- What the kernel answers during one call. -/
structure KernelAnswers where
  /-- the code of setting up the rings -/
  initCode : ℤ
  /-- whether the first request for a slot is granted -/
  slot : Bool
  /-- the code of the submission made when it is not -/
  flushCode : ℤ
  /-- whether the second request for a slot is granted -/
  retrySlot : Bool
  submitCode : ℤ
  /-- the result of the request this call prepares -/
  result : ℤ
  /-- what a submitted read leaves in its buffer -/
  fill : List Byte → List Byte

/-- What a call did: its outcome, the completion it took it from, and the buffer after it. -/
structure CallReport where
  outcome : Except PyException ℕ
  answered : Option RingRequest
  view : List Byte

/-- The adapter's state, with that of the operating system under it. The ring is there on a
Linux host with the kernel library. -/
structure IoUringTargetAdapter (ω : Type) where
  queueDepth : ℕ
  initialized : Bool
  ring : Option Ring
  fds : Dict String ℕ
  os : ω

/-- The exception of a message of class `AdapterError`. -/
def adapterError (message : String) : PyException := ⟨.steve .adapterError, message⟩

/-- The exception of a message of class `AlignmentError`. -/
def alignmentError (message : String) : PyException := ⟨.steve .alignmentError, message⟩

/-- The exception of a negative completion. -/
def completionError (strerror : ℤ → String) (direction : String) (result : ℤ) : PyException :=
  let reason := strerror (-result)
  ⟨.steve .hardwareIoError, s!"io_uring Direct I/O {direction} failed: {reason}"⟩

/-- The part of a call on the ring: find a slot, prepare, submit, wait, and mark as seen. -/
def ringTransfer (strerror : ℤ → String) (direction : String) (kernel : KernelAnswers)
    (operation : RingOperation) (userData : ℕ) (view filled : List Byte) (ring : Ring) :
    CallReport × Ring :=
  let flushed := if kernel.slot then ring else ring.submit kernel.flushCode
  if kernel.slot = false ∧ kernel.retrySlot = false then
    (⟨.error ⟨.steve .queueFullError, "io_uring submission queue saturated"⟩, none, view⟩, flushed)
  else
    let submitted := (flushed.prep operation userData kernel.result).submit kernel.submitCode
    if hcode : kernel.submitCode < 0 then
      let reason := strerror (-kernel.submitCode)
      (⟨.error (adapterError s!"io_uring_submit failed: {reason}"), none, view⟩, submitted)
    else
      let completion := submitted.waitCqe
        (flushed.submit_prep_pending operation userData kernel.result hcode)
      if completion.result < 0 then
        -- raised before the completion is marked as seen
        (⟨.error (completionError strerror direction completion.result), some completion, filled⟩,
          submitted)
      else (⟨.ok completion.result.toNat, some completion, filled⟩, submitted.cqeSeen)

namespace IoUringTargetAdapter

variable {ω : Type} (system : OperatingSystem ω)

/-- A new adapter, with a ring where the platform has one. -/
def init (hasRing : Bool) (queueDepth : ℕ) (os : ω) : IoUringTargetAdapter ω where
  queueDepth := queueDepth
  initialized := false
  ring := if hasRing then some Ring.empty else none
  fds := Dict.empty
  os := os

/-- `initialize`: set up the rings once. -/
def initializeAdapter (initCode : ℤ) (adapter : IoUringTargetAdapter ω) :
    Except PyException Unit × IoUringTargetAdapter ω :=
  if adapter.initialized then (.ok (), adapter)
  else match adapter.ring with
    | none => (.ok (), { adapter with initialized := true })
    | some _ =>
      if initCode < 0 then
        let reason := system.strerror (-initCode)
        (.error (adapterError s!"Failed to initialize io_uring ring: {reason}"), adapter)
      else (.ok (), { adapter with initialized := true, ring := some Ring.empty })

/-- The first violated boundary of a request, if any. -/
def verifyAlignment (buffer : DirectBuffer (List Byte)) (offset : ℕ) : Option PyException :=
  if buffer.address % 4096 ≠ 0 then
    let address := pyHex buffer.address
    some (alignmentError s!"Buffer address {address} violates 4096-byte page boundary")
  else if buffer.size % 4096 ≠ 0 then
    let size := buffer.size
    some (alignmentError s!"Buffer length {size} is not a multiple of 4096 bytes")
  else if offset % 4096 ≠ 0 then
    some (alignmentError s!"File offset {offset} is not a multiple of 4096 bytes")
  else none

/-- Create the parent directory of a path unless it exists. -/
def ensureParent (path : String) (os : ω) : Except OsError Unit × ω :=
  if system.parentExists os path then (.ok (), os) else system.mkdirParents os path

/-- The cached descriptor of a resource, or a newly opened one. -/
def getOrOpenFd (target : TargetDescriptor) (adapter : IoUringTargetAdapter ω) :
    Except PyException ℕ × IoUringTargetAdapter ω :=
  let path := target.resourcePath
  match adapter.fds.get? path with
  | some fd => (.ok fd, adapter)
  | none =>
    match ensureParent system path adapter.os with
    | (.error e, os) => (.error e.raised, { adapter with os := os })
    | (.ok (), os) =>
      match system.openFile os path with
      | (.error e, os) =>
        let reason := e.message
        (.error (adapterError s!"Failed to open target {path}: {reason}"),
          { adapter with os := os })
      | (.ok fd, os) => (.ok fd, { adapter with os := os, fds := adapter.fds.set path fd })

/-- What both transfers do first: initialize, check alignment, and get a descriptor. -/
def prepareTransfer (initCode : ℤ) (target : TargetDescriptor) (offset : ℕ)
    (buffer : DirectBuffer (List Byte)) (adapter : IoUringTargetAdapter ω) :
    Except PyException ℕ × IoUringTargetAdapter ω :=
  match adapter.initializeAdapter system initCode with
  | (.error e, adapter) => (.error e, adapter)
  | (.ok (), adapter) =>
    match verifyAlignment buffer offset with
    | some e => (.error e, adapter)
    | none => adapter.getOrOpenFd system target

/-- The fallback of a write: seek and write. -/
def fallbackWrite (fd offset : ℕ) (view : List Byte) (adapter : IoUringTargetAdapter ω) :
    CallReport × IoUringTargetAdapter ω :=
  match system.lseek adapter.os fd offset with
  | (.error e, os) => (⟨.error e.raised, none, view⟩, { adapter with os := os })
  | (.ok (), os) =>
    match system.write os fd view with
    | (.error e, os) => (⟨.error e.raised, none, view⟩, { adapter with os := os })
    | (.ok written, os) => (⟨.ok written, none, view⟩, { adapter with os := os })

/-- The fallback of a read: seek, read, and copy into the buffer. -/
def fallbackRead (fd offset : ℕ) (buffer : DirectBuffer (List Byte))
    (adapter : IoUringTargetAdapter ω) : CallReport × IoUringTargetAdapter ω :=
  match system.lseek adapter.os fd offset with
  | (.error e, os) => (⟨.error e.raised, none, buffer.view⟩, { adapter with os := os })
  | (.ok (), os) =>
    match system.read os fd buffer.size with
    | (.error e, os) => (⟨.error e.raised, none, buffer.view⟩, { adapter with os := os })
    | (.ok data, os) =>
      match overlay buffer.view data with
      | .error e => (⟨.error e, none, buffer.view⟩, { adapter with os := os })
      | .ok view => (⟨.ok data.length, none, view⟩, { adapter with os := os })

/-- `write`. -/
def write (kernel : KernelAnswers) (target : TargetDescriptor) (offset : ℕ)
    (payload : DirectBuffer (List Byte)) (adapter : IoUringTargetAdapter ω) :
    CallReport × IoUringTargetAdapter ω :=
  match adapter.prepareTransfer system kernel.initCode target offset payload with
  | (.error e, adapter) => (⟨.error e, none, payload.view⟩, adapter)
  | (.ok fd, adapter) =>
    match adapter.ring with
    | some ring =>
      let (report, ring) := ringTransfer system.strerror "write" kernel
        (.write fd payload.view offset) 1 payload.view payload.view ring
      (report, { adapter with ring := some ring })
    | none => adapter.fallbackWrite system fd offset payload.view

/-- `read`. -/
def read (kernel : KernelAnswers) (target : TargetDescriptor) (offset : ℕ)
    (buffer : DirectBuffer (List Byte)) (adapter : IoUringTargetAdapter ω) :
    CallReport × IoUringTargetAdapter ω :=
  match adapter.prepareTransfer system kernel.initCode target offset buffer with
  | (.error e, adapter) => (⟨.error e, none, buffer.view⟩, adapter)
  | (.ok fd, adapter) =>
    match adapter.ring with
    | some ring =>
      let (report, ring) := ringTransfer system.strerror "read" kernel
        (.read fd buffer.view offset) 2 buffer.view (kernel.fill buffer.view) ring
      (report, { adapter with ring := some ring })
    | none => adapter.fallbackRead system fd offset buffer

/-- `flush`: submit what is prepared and sync the resource; failures of the sync are dropped. -/
def flush (submitCode : ℤ) (target : TargetDescriptor) (adapter : IoUringTargetAdapter ω) :
    IoUringTargetAdapter ω :=
  let submitted := if adapter.initialized then
      { adapter with ring := adapter.ring.map fun ring => ring.submit submitCode }
    else adapter
  match submitted.fds.get? target.resourcePath with
  | none => submitted
  | some fd => { submitted with os := (system.fsync submitted.os fd).2 }

/-- `close`: close every cached descriptor, dropping failures, and take down the rings. -/
def close (adapter : IoUringTargetAdapter ω) : IoUringTargetAdapter ω :=
  let closed := { adapter with
    os := adapter.fds.values.foldl (fun os fd => (system.closeFile os fd).2) adapter.os
    fds := Dict.empty }
  match closed.ring with
  | some _ =>
    if closed.initialized then { closed with ring := some Ring.empty, initialized := false }
    else closed
  | none => closed

end IoUringTargetAdapter

end Steve.Adapters
