import Steve.Adapters.FileSemantics

/-!
# An executable file system

A file system in which every path names its own file, no call on an open descriptor fails,
and a script says how much of each write moves. It meets the semantics whatever the script,
and is reliable when every write moves in full.
-/

namespace Steve.Adapters

open Steve.Library

/-- The files by path, the descriptor table, and the transfers made. -/
structure Disk where
  files : String → List Byte
  table : List (Option (String × ℕ))
  writes : List (FileWrite String)

namespace Disk

/-- A disk without files. -/
def empty : Disk := ⟨fun _ => [], [], []⟩

/-- What the semantics sees of a disk. -/
def view (disk : Disk) : FileView String where
  content := disk.files
  descriptor := fun fd => disk.table[fd]?.join
  writes := disk.writes

/-- A descriptor's file and cursor are its entry of the table. -/
theorem view_descriptor (disk : Disk) (fd : ℕ) :
    disk.view.descriptor fd = disk.table[fd]?.join := rfl

/-- Let an open descriptor point into a file. -/
def seek (disk : Disk) (fd : ℕ) (file : String) (cursor : ℕ) : Disk :=
  { disk with table := disk.table.set fd (some (file, cursor)) }

/-- Move data into a file at an open descriptor's cursor. -/
def transfer (disk : Disk) (fd : ℕ) (file : String) (cursor : ℕ) (data : List Byte) : Disk where
  files := Function.update disk.files file (writeAt (disk.files file) cursor data)
  table := disk.table.set fd (some (file, cursor + data.length))
  writes := disk.writes ++ [⟨file, cursor, data⟩]

/-- Run a call on an open descriptor, or fail on another one. -/
def onOpen {A : Type} (disk : Disk) (fd : ℕ) (call : String → ℕ → A × Disk) :
    Except OsError A × Disk :=
  match disk.view.descriptor fd with
  | none => (.error ⟨9, "[Errno 9] Bad file descriptor"⟩, disk)
  | some (file, cursor) => (.ok (call file cursor).1, (call file cursor).2)

/-- How much of a write moves under a script: something, where there is anything to move. -/
def moves (disk : Disk) (moved : ℕ → ℕ → ℕ) (data : List Byte) : ℕ :=
  min (max 1 (moved disk.writes.length data.length)) data.length

/-- Read all that is available up to a size. -/
def readAvailable (disk : Disk) (fd size : ℕ) : Except OsError (List Byte) × Disk :=
  disk.onOpen fd fun file cursor =>
    (readAt (disk.files file) cursor size,
      disk.seek fd file (cursor + (readAt (disk.files file) cursor size).length))

/-- An open descriptor lies in the table. -/
theorem lt_of_descriptor {disk : Disk} {fd : ℕ} {entry : String × ℕ}
    (h : disk.view.descriptor fd = some entry) : fd < disk.table.length := by
  by_contra hout
  have hnone : disk.table[fd]? = none := List.getElem?_eq_none (by omega)
  rw [view_descriptor, hnone] at h
  cases h

/-- Overwriting an entry of the table moves its descriptor. -/
theorem descriptor_set {disk : Disk} {fd : ℕ} (h : fd < disk.table.length)
    (entry : String × ℕ) :
    (fun other => (disk.table.set fd (some entry))[other]?.join) =
      Function.update disk.view.descriptor fd (some entry) := by
  funext other
  by_cases hsame : other = fd
  · rw [hsame, Function.update_self, List.getElem?_set_self h]
    rfl
  · rw [Function.update_of_ne hsame, List.getElem?_set_ne (fun heq => hsame heq.symm)]
    rfl

/-- A seek moves its descriptor in the view. -/
theorem view_seek {disk : Disk} {fd : ℕ} (h : fd < disk.table.length) (file : String)
    (cursor : ℕ) : (disk.seek fd file cursor).view = disk.view.setDescriptor fd file cursor := by
  rw [FileView.setDescriptor, ← descriptor_set h]
  rfl

/-- A transfer is one in the view. -/
theorem view_transfer {disk : Disk} {fd : ℕ} (h : fd < disk.table.length) (file : String)
    (cursor : ℕ) (data : List Byte) :
    (disk.transfer fd file cursor data).view = disk.view.transfer fd file cursor data := by
  rw [FileView.transfer, ← descriptor_set h]
  rfl

/-- Opening appends a fresh descriptor. -/
theorem view_open (disk : Disk) (path : String) :
    disk.view.descriptor disk.table.length = none ∧
      ({ disk with table := disk.table ++ [some (path, 0)] } : Disk).view =
        disk.view.setDescriptor disk.table.length path 0 := by
  constructor
  · rw [view_descriptor, List.getElem?_eq_none (Nat.le_refl _)]
    rfl
  · have hdescriptor : (fun fd => (disk.table ++ [some (path, 0)])[fd]?.join) =
        Function.update disk.view.descriptor disk.table.length (some (path, 0)) := by
      funext fd
      by_cases hsame : fd = disk.table.length
      · rw [hsame, Function.update_self, List.getElem?_concat_length]
        rfl
      · rw [Function.update_of_ne hsame, view_descriptor]
        rcases Nat.lt_or_gt_of_ne hsame with hlow | hhigh
        · rw [List.getElem?_append_left hlow]
        · have hout : (disk.table ++ [some (path, 0)]).length ≤ fd := by
            rw [List.length_append]
            exact hhigh
          rw [List.getElem?_eq_none hout, List.getElem?_eq_none (Nat.le_of_lt hhigh)]
    rw [FileView.setDescriptor, ← hdescriptor]
    rfl

end Disk

/-- A disk's system calls, where `moved` scripts how much of each write moves: by the number
of earlier transfers and the length of the data. -/
def diskSystem (moved : ℕ → ℕ → ℕ) : PosixSystem Disk where
  parentExists := fun _ _ => true
  mkdirParents := fun disk _ => (.ok (), disk)
  openFile := fun disk path =>
    (.ok disk.table.length, { disk with table := disk.table ++ [some (path, 0)] })
  lseek := fun disk fd position =>
    disk.onOpen fd fun file _ => ((), disk.seek fd file position)
  write := fun disk fd data =>
    disk.onOpen fd fun file cursor =>
      (disk.moves moved data, disk.transfer fd file cursor (data.take (disk.moves moved data)))
  read := fun disk fd size => disk.readAvailable fd size.toNat
  fsync := fun disk fd => disk.onOpen fd fun _ _ => ((), disk)
  closeFile := fun disk fd => (.ok (), { disk with table := disk.table.set fd none })
  strerror := fun _ => "Unknown error"
  readv := some Disk.readAvailable
  readinto := fun disk fd size =>
    ((disk.readAvailable fd size).1.map some, (disk.readAvailable fd size).2)

/-- A call on an open descriptor runs. -/
theorem Disk.onOpen_eq {A : Type} {disk : Disk} {fd : ℕ} {file : String} {cursor : ℕ}
    (h : disk.view.descriptor fd = some (file, cursor)) (call : String → ℕ → A × Disk) :
    disk.onOpen fd call = (.ok (call file cursor).1, (call file cursor).2) := by
  simp only [onOpen, h]

/-- A disk keeps the semantics, whatever its script. -/
def diskSemantics (moved : ℕ → ℕ → ℕ) :
    FileSemantics String (diskSystem moved).toOperatingSystem where
  view := Disk.view
  fileOf := id
  mkdirParents := fun _ _ => rfl
  openFile := by
    intro disk path fd next h
    cases h
    exact disk.view_open path
  lseek := by
    intro disk fd file cursor position next hopen h
    have hcall := Disk.onOpen_eq hopen fun file _ => ((), disk.seek fd file position)
    cases hcall.symm.trans h
    exact Disk.view_seek (Disk.lt_of_descriptor hopen) file position
  write := by
    intro disk fd file cursor data count next hopen h
    have hcall := Disk.onOpen_eq hopen fun file cursor =>
      (disk.moves moved data, disk.transfer fd file cursor (data.take (disk.moves moved data)))
    cases hcall.symm.trans h
    refine ⟨Nat.min_le_right _ _, ?_,
      Disk.view_transfer (Disk.lt_of_descriptor hopen) file cursor _⟩
    intro hdata
    have hlength := List.length_pos_of_ne_nil hdata
    unfold Disk.moves
    omega

/-- A disk reads all that is available. -/
theorem Disk.readsAll (moved : ℕ → ℕ → ℕ) :
    ReadsAll (diskSemantics moved) Disk.readAvailable := by
  intro disk fd file cursor size hopen
  exact ⟨_, _, Disk.onOpen_eq hopen _,
    Disk.view_seek (Disk.lt_of_descriptor hopen) file _⟩

/-- A disk whose writes move in full is reliable. -/
theorem diskSemantics_reliable :
    (diskSemantics fun _ length => length).Reliable Set.univ where
  mkdirParents := fun _ _ _ => rfl
  openFile := fun disk _ _ => ⟨disk.table.length, rfl⟩
  lseek := by
    intro disk fd file cursor position hopen
    exact congrArg Prod.fst (Disk.onOpen_eq hopen _)
  write := by
    intro disk fd file cursor data hopen
    have hmoves : disk.moves (fun _ length => length) data = data.length := by
      change min (max 1 data.length) data.length = data.length
      omega
    have hcall := congrArg Prod.fst (Disk.onOpen_eq hopen fun file cursor =>
      (disk.moves (fun _ length => length) data,
        disk.transfer fd file cursor (data.take (disk.moves (fun _ length => length) data))))
    exact hcall.trans (congrArg Except.ok hmoves)
  read := Disk.readsAll _
  readv := by
    intro readv h
    cases h
    exact Disk.readsAll _
  readinto := by
    intro disk fd file cursor size hopen
    obtain ⟨next, position, hcall, hview⟩ := Disk.readsAll _ disk fd file cursor size hopen
    refine ⟨next, position, ?_, hview⟩
    simp only [diskSystem, hcall, Except.map, Option.getD_some]
  fsync := by
    intro disk fd file cursor hopen
    have hcall : (diskSystem fun _ length => length).fsync disk fd = (.ok (), disk) :=
      Disk.onOpen_eq hopen fun _ _ => ((), disk)
    rw [hcall]
    exact ⟨rfl, rfl⟩
  closeFile := fun _ _ => rfl

end Steve.Adapters
