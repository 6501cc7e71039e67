import Mathlib.Data.Set.Function
import Steve.Adapters.FileSemantics
import Steve.Adapters.IoUring

/-!
# The file-backed adapters as one plain store

Both adapters keep a cache from paths to descriptors, each with a cursor that other calls
move. Underneath, what a sequence of calls returns depends on nothing but a map from paths
to bytes: the cache always leads to the right file, and every transfer seeks first.
-/

namespace Steve.Adapters

open Steve.Library

/-- A call on a file-backed adapter. -/
inductive StoreCall where
  | write (target : TargetDescriptor) (offset : ℕ) (payload : DirectBuffer (List Byte))
  | read (target : TargetDescriptor) (offset : ℕ) (buffer : DirectBuffer (List Byte))
  | flush (target : TargetDescriptor)
  | close

/-- What a call answers, with the bytes in its buffer after it; calls without a byte count
or a buffer answer with zero or nothing there. -/
structure StoreAnswer where
  outcome : Except PyException ℕ
  view : List Byte
  deriving DecidableEq

/-- A map from paths to bytes serving a call. -/
def referenceStep (store : String → List Byte) : StoreCall →
    StoreAnswer × (String → List Byte)
  | .write target offset payload =>
    (⟨.ok payload.view.length, payload.view⟩, Function.update store target.resourcePath
      (writeAt (store target.resourcePath) offset payload.view))
  | .read target offset buffer =>
    let data := readAt (store target.resourcePath) offset buffer.view.length
    (⟨.ok data.length, filled buffer.view data⟩, store)
  | .flush _ => (⟨.ok 0, []⟩, store)
  | .close => (⟨.ok 0, []⟩, store)

/-- The direct I/O adapter serving a call. -/
def posixStep {ω : Type} (system : PosixSystem ω) (adapter : PosixDirectIOAdapter ω) :
    StoreCall → StoreAnswer × PosixDirectIOAdapter ω
  | .write target offset payload =>
    let (outcome, next) := adapter.write system target offset payload
    (⟨outcome, payload.view⟩, next)
  | .read target offset buffer =>
    let (outcome, view, next) := adapter.read system target offset buffer
    (⟨outcome, view⟩, next)
  | .flush target =>
    let (outcome, next) := adapter.flush system target
    (⟨outcome.map fun _ => 0, []⟩, next)
  | .close => (⟨.ok 0, []⟩, adapter.close system)

/-- The `io_uring` adapter serving a call, with the kernel's answers during it. -/
def ioUringStep {ω : Type} (system : OperatingSystem ω) (adapter : IoUringTargetAdapter ω)
    (input : KernelAnswers × StoreCall) : StoreAnswer × IoUringTargetAdapter ω :=
  match input.2 with
  | .write target offset payload =>
    let (report, next) := adapter.write system input.1 target offset payload
    (⟨report.outcome, report.view⟩, next)
  | .read target offset buffer =>
    let (report, next) := adapter.read system input.1 target offset buffer
    (⟨report.outcome, report.view⟩, next)
  | .flush target => (⟨.ok 0, []⟩, adapter.flush system input.1.submitCode target)
  | .close => (⟨.ok 0, []⟩, adapter.close system)

/-- A buffer for direct I/O at an offset. -/
structure AlignedTransfer (offset : ℕ) (buffer : DirectBuffer (List Byte)) : Prop where
  address : buffer.address % 4096 = 0
  length : buffer.view.length % 4096 = 0
  offset : offset % 4096 = 0
  nonempty : 0 < buffer.view.length
  size : buffer.size = buffer.view.length

/-- A call on one of the given paths, aligned where it transfers. -/
def StoreCall.Aligned (paths : Set String) : StoreCall → Prop
  | .write target offset payload =>
    target.resourcePath ∈ paths ∧ AlignedTransfer offset payload
  | .read target offset buffer => target.resourcePath ∈ paths ∧ AlignedTransfer offset buffer
  | .flush target => target.resourcePath ∈ paths
  | .close => True

section Representation

variable {ω : Type} {F : Type} [DecidableEq F]

/-- Every cached descriptor is open on its path's file. -/
structure CacheOpen {system : OperatingSystem ω} (semantics : FileSemantics F system)
    (fds : Dict String ℕ) (os : ω) : Prop where
  cached : ∀ path fd, fds.get? path = some fd →
    ∃ cursor, (semantics.view os).descriptor fd = some (semantics.fileOf path, cursor)

/-- A cache and an operating system represent a store: the cached descriptors are open on
their files, and every path's file holds the store's bytes. -/
structure Represents {system : OperatingSystem ω} (semantics : FileSemantics F system)
    (paths : Set String) (fds : Dict String ℕ) (os : ω) (store : String → List Byte) : Prop
    extends CacheOpen semantics fds os where
  content : ∀ path ∈ paths, (semantics.view os).content (semantics.fileOf path) = store path

section Rules

variable {system : OperatingSystem ω} {semantics : FileSemantics F system} {paths : Set String}
  {fds : Dict String ℕ} {os next : ω} {store : String → List Byte}

/-- An empty cache holds no closed descriptor. -/
theorem cacheOpen_empty : CacheOpen semantics Dict.empty os where
  cached := by
    intro path fd hnone
    cases hnone

/-- A call that leaves the descriptors leaves the cache open. -/
theorem CacheOpen.of_descriptor_eq (h : CacheOpen semantics fds os)
    (hview : (semantics.view next).descriptor = (semantics.view os).descriptor) :
    CacheOpen semantics fds next where
  cached := by
    rw [hview]
    exact h.cached

/-- Moving the cursor of an open descriptor leaves the cache open. -/
theorem CacheOpen.of_update (h : CacheOpen semantics fds os) {fd : ℕ} {file : F}
    {cursor position : ℕ} (hopen : (semantics.view os).descriptor fd = some (file, cursor))
    (hview : (semantics.view next).descriptor =
      Function.update (semantics.view os).descriptor fd (some (file, position))) :
    CacheOpen semantics fds next where
  cached := by
    intro path other hother
    obtain ⟨otherCursor, hcached⟩ := h.cached path other hother
    rw [hview]
    by_cases hsame : other = fd
    · rw [hsame, hopen, Option.some.injEq, Prod.mk.injEq] at hcached
      rw [hsame, ← hcached.1]
      exact ⟨position, Function.update_self _ _ _⟩
    · exact ⟨otherCursor, by rw [Function.update_of_ne hsame, hcached]⟩

/-- Caching a newly opened descriptor under its path leaves the cache open. -/
theorem CacheOpen.set (h : CacheOpen semantics fds os) {path : String} {fd : ℕ}
    (hopened : system.openFile os path = (.ok fd, next)) :
    CacheOpen semantics (fds.set path fd) next where
  cached := by
    obtain ⟨hfree, hview⟩ := semantics.openFile os path fd next hopened
    intro other otherFd hother
    rw [hview]
    rw [Dict.get?_set] at hother
    split at hother
    · rename_i hsame
      cases hother
      exact ⟨0, by rw [FileView.setDescriptor_self, hsame]⟩
    · obtain ⟨cursor, hcached⟩ := h.cached other otherFd hother
      have hne : otherFd ≠ fd := by
        intro hsame
        rw [hsame, hfree] at hcached
        cases hcached
      exact ⟨cursor, by rw [FileView.setDescriptor_of_ne _ hne, hcached]⟩

/-- A call that leaves the view leaves what is represented. -/
theorem Represents.of_view_eq (h : Represents semantics paths fds os store)
    (hview : semantics.view next = semantics.view os) :
    Represents semantics paths fds next store where
  toCacheOpen := h.toCacheOpen.of_descriptor_eq (by rw [hview])
  content := by
    rw [hview]
    exact h.content

/-- Moving the cursor of an open descriptor leaves what is represented. -/
theorem Represents.setDescriptor (h : Represents semantics paths fds os store) {fd : ℕ}
    {file : F} {cursor position : ℕ}
    (hopen : (semantics.view os).descriptor fd = some (file, cursor))
    (hview : semantics.view next = (semantics.view os).setDescriptor fd file position) :
    Represents semantics paths fds next store where
  toCacheOpen := h.toCacheOpen.of_update hopen (congrArg FileView.descriptor hview)
  content := by
    rw [hview]
    exact h.content

/-- Caching a newly opened descriptor under its path leaves what is represented. -/
theorem Represents.set (h : Represents semantics paths fds os store) {path : String} {fd : ℕ}
    (hopened : system.openFile os path = (.ok fd, next)) :
    Represents semantics paths (fds.set path fd) next store where
  toCacheOpen := h.toCacheOpen.set hopened
  content := by
    rw [(semantics.openFile os path fd next hopened).2]
    exact h.content

/-- A transfer at a cached descriptor writes the store at its path. -/
theorem Represents.transfer (h : Represents semantics paths fds os store)
    (hdistinct : Set.InjOn semantics.fileOf paths) {path : String} (hpath : path ∈ paths)
    {fd cursor : ℕ} {data : List Byte}
    (hopen : (semantics.view os).descriptor fd = some (semantics.fileOf path, cursor))
    (hview : semantics.view next =
      (semantics.view os).transfer fd (semantics.fileOf path) cursor data) :
    Represents semantics paths fds next
      (Function.update store path (writeAt (store path) cursor data)) where
  toCacheOpen := h.toCacheOpen.of_update hopen (congrArg FileView.descriptor hview)
  content := by
    intro other hother
    rw [hview]
    by_cases hsame : other = path
    · rw [hsame, FileView.transfer_content_self, Function.update_self, h.content path hpath]
    · have hfile : semantics.fileOf other ≠ semantics.fileOf path :=
        fun heq => hsame (hdistinct hother hpath heq)
      rw [FileView.transfer_content_of_ne _ _ hfile, Function.update_of_ne hsame]
      exact h.content other hother

/-- An empty cache represents a store once the files hold its bytes. -/
theorem represents_empty
    (hcontent : ∀ path ∈ paths, (semantics.view os).content (semantics.fileOf path) = store path) :
    Represents semantics paths Dict.empty os store where
  toCacheOpen := cacheOpen_empty
  content := hcontent

end Rules

end Representation

end Steve.Adapters
