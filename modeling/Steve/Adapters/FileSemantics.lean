import Mathlib.Logic.Function.Basic
import Mathlib.Data.Set.Basic
import Steve.Adapters.Posix

/-!
# What the file system promises the adapters

A view of an operating system's state gives every file its bytes, every open descriptor its
file and cursor, and the transfers made by writes so far. Paths name files, several possibly
the same one. The semantics says what a successful call does to the view; a write may move
only part of its data. A reliable file system has no failing call and no partial one.
-/

namespace Steve.Adapters

open Steve.Library

/-- The bytes of a file after a write at a position, with zeros up to it. -/
def writeAt (content : List Byte) (position : ℕ) (data : List Byte) : List Byte :=
  if data = [] then content
  else content.take position ++ List.replicate (position - content.length) 0 ++ data ++
    content.drop (position + data.length)

/-- The bytes of a file from a position on, as many as asked for and available. -/
def readAt (content : List Byte) (position size : ℕ) : List Byte :=
  (content.drop position).take size

/-- A read moves at most what it was asked for. -/
theorem readAt_length_le (content : List Byte) (position size : ℕ) :
    (readAt content position size).length ≤ size := List.length_take_le _ _

/-- What a read finds right after a write at the same place is what was written. -/
theorem readAt_writeAt (content : List Byte) (position : ℕ) (data : List Byte) :
    readAt (writeAt content position data) position data.length = data := by
  by_cases hempty : data = []
  · rw [readAt, hempty, List.length_nil, List.take_zero]
  · have hbefore : (content.take position ++
        List.replicate (position - content.length) 0).length = position := by
      rw [List.length_append, List.length_take, List.length_replicate]
      omega
    rw [readAt, writeAt, if_neg hempty, List.append_assoc, List.drop_append,
      List.drop_of_length_le (Nat.le_of_eq hbefore), hbefore, Nat.sub_self, List.drop_zero,
      List.nil_append, List.take_left']
    rfl

/-- A transfer into a file. -/
structure FileWrite (F : Type) where
  file : F
  position : ℕ
  data : List Byte

/-- The files, the open descriptors with their cursors, and the transfers made so far. -/
structure FileView (F : Type) where
  content : F → List Byte
  descriptor : ℕ → Option (F × ℕ)
  writes : List (FileWrite F)

namespace FileView

variable {F : Type}

/-- Let a descriptor point into a file. -/
def setDescriptor (view : FileView F) (fd : ℕ) (file : F) (cursor : ℕ) : FileView F :=
  { view with descriptor := Function.update view.descriptor fd (some (file, cursor)) }

/-- A moved descriptor points where it was let point. -/
@[simp] theorem setDescriptor_self (view : FileView F) (fd : ℕ) (file : F) (cursor : ℕ) :
    (view.setDescriptor fd file cursor).descriptor fd = some (file, cursor) :=
  Function.update_self _ _ _

/-- Other descriptors stay where they are. -/
theorem setDescriptor_of_ne (view : FileView F) {fd other : ℕ} (h : other ≠ fd) (file : F)
    (cursor : ℕ) :
    (view.setDescriptor fd file cursor).descriptor other = view.descriptor other :=
  Function.update_of_ne h _ _

variable [DecidableEq F]

/-- Move data into a file at a descriptor's cursor. -/
def transfer (view : FileView F) (fd : ℕ) (file : F) (cursor : ℕ) (data : List Byte) :
    FileView F where
  content := Function.update view.content file (writeAt (view.content file) cursor data)
  descriptor := Function.update view.descriptor fd (some (file, cursor + data.length))
  writes := view.writes ++ [⟨file, cursor, data⟩]

/-- A transfer writes its file. -/
@[simp] theorem transfer_content_self (view : FileView F) (fd : ℕ) (file : F) (cursor : ℕ)
    (data : List Byte) :
    (view.transfer fd file cursor data).content file = writeAt (view.content file) cursor data :=
  Function.update_self _ _ _

/-- A transfer leaves the other files. -/
theorem transfer_content_of_ne (view : FileView F) (fd : ℕ) {file other : F} (h : other ≠ file)
    (cursor : ℕ) (data : List Byte) :
    (view.transfer fd file cursor data).content other = view.content other :=
  Function.update_of_ne h _ _

end FileView

section Semantics

variable {ω : Type} (F : Type) [DecidableEq F]

/-- What successful calls do to the view. -/
structure FileSemantics (system : OperatingSystem ω) where
  view : ω → FileView F
  fileOf : String → F
  mkdirParents : ∀ os path, view (system.mkdirParents os path).2 = view os
  openFile : ∀ os path fd next, system.openFile os path = (.ok fd, next) →
    (view os).descriptor fd = none ∧ view next = (view os).setDescriptor fd (fileOf path) 0
  lseek : ∀ os fd file cursor position next, (view os).descriptor fd = some (file, cursor) →
    system.lseek os fd position = (.ok (), next) →
      view next = (view os).setDescriptor fd file position
  write : ∀ os fd file cursor data count next, (view os).descriptor fd = some (file, cursor) →
    system.write os fd data = (.ok count, next) →
      count ≤ data.length ∧ (data ≠ [] → 1 ≤ count) ∧
        view next = (view os).transfer fd file cursor (data.take count)

variable {F}

/-- Whether a read call moves all the bytes available at a descriptor's cursor. -/
def ReadsAll {system : OperatingSystem ω} (semantics : FileSemantics F system)
    (call : ω → ℕ → ℕ → Except OsError (List Byte) × ω) : Prop :=
  ∀ os fd file cursor size, (semantics.view os).descriptor fd = some (file, cursor) →
    ∃ next moved, call os fd size =
        (.ok (readAt ((semantics.view os).content file) cursor size), next) ∧
      semantics.view next = (semantics.view os).setDescriptor fd file moved

/-- No call fails, on descriptors that are open and on the given paths, and every transfer is
complete. -/
structure FileSemantics.Reliable {system : PosixSystem ω}
    (semantics : FileSemantics F system.toOperatingSystem) (paths : Set String) : Prop where
  mkdirParents : ∀ os, ∀ path ∈ paths, (system.mkdirParents os path).1 = .ok ()
  openFile : ∀ os, ∀ path ∈ paths, ∃ fd, (system.openFile os path).1 = .ok fd
  lseek : ∀ os fd file cursor position,
    (semantics.view os).descriptor fd = some (file, cursor) →
      (system.lseek os fd position).1 = .ok ()
  write : ∀ os fd file cursor data, (semantics.view os).descriptor fd = some (file, cursor) →
    (system.write os fd data).1 = .ok data.length
  read : ReadsAll semantics fun os fd size => system.read os fd size
  readv : ∀ readv, system.readv = some readv → ReadsAll semantics readv
  readinto : ReadsAll semantics fun os fd size =>
    ((system.readinto os fd size).1.map (Option.getD · []), (system.readinto os fd size).2)
  fsync : ∀ os fd file cursor, (semantics.view os).descriptor fd = some (file, cursor) →
    (system.fsync os fd).1 = .ok () ∧ semantics.view (system.fsync os fd).2 = semantics.view os
  closeFile : ∀ os fd,
    (semantics.view (system.closeFile os fd).2).content = (semantics.view os).content

end Semantics

end Steve.Adapters
