import Steve.Adapters.IoUring
import Steve.Adapters.IoUringAttribution
import Steve.Adapters.Posix

/-!
# Adapters with their system calls logged

An operating system that also logs every call that can change a file or a descriptor, with
the failure of the call if it failed. The adapters run on it as on the one it wraps; the
events a call of theirs adds tell how far it got.
-/

namespace Steve.Adapters

open Steve.Library

/-- A system call that can change a file or a descriptor. -/
inductive SystemCall
  | mkdirParents (path : String)
  /-- with the descriptor it opened, if it did -/
  | openFile (path : String) (opened : Option ℕ)
  | lseek (fd : ℕ)
  | write (fd : ℕ)
  | read (fd : ℕ)
  | fsync (fd : ℕ)
  | closeFile (fd : ℕ)
  deriving DecidableEq, Repr

/-- A logged system call, with its failure. -/
structure SystemEvent where
  call : SystemCall
  failure : Option OsError
  deriving DecidableEq, Repr

/-- The failure of an answer. -/
def failureOf {α : Type} : Except OsError α → Option OsError
  | .error e => some e
  | .ok _ => none

variable {ω : Type}

/-- Log the answer to a system call. -/
def logged {α : Type} (call : SystemCall) (log : List SystemEvent) (answer : Except OsError α × ω) :
    Except OsError α × (ω × List SystemEvent) :=
  (answer.1, answer.2, log ++ [⟨call, failureOf answer.1⟩])

/-- What is made of an answer does not change what is logged of it. -/
theorem logged_map {α β : Type} (f : α → β) (call : SystemCall) (log : List SystemEvent)
    (answer : Except OsError α × ω) :
    ((logged call log answer).1.map f, (logged call log answer).2) =
      logged call log (answer.1.map f, answer.2) := by
  unfold logged
  cases answer with
  | mk answer moved => cases answer <;> rfl

/-- An operating system that logs its calls. -/
def tracedOs (system : OperatingSystem ω) : OperatingSystem (ω × List SystemEvent) where
  parentExists := fun os path => system.parentExists os.1 path
  mkdirParents := fun os path =>
    logged (.mkdirParents path) os.2 (system.mkdirParents os.1 path)
  openFile := fun os path =>
    let answer := system.openFile os.1 path
    logged (.openFile path answer.1.toOption) os.2 answer
  lseek := fun os fd offset => logged (.lseek fd) os.2 (system.lseek os.1 fd offset)
  write := fun os fd bytes => logged (.write fd) os.2 (system.write os.1 fd bytes)
  read := fun os fd size => logged (.read fd) os.2 (system.read os.1 fd size)
  fsync := fun os fd => logged (.fsync fd) os.2 (system.fsync os.1 fd)
  closeFile := fun os fd => logged (.closeFile fd) os.2 (system.closeFile os.1 fd)
  strerror := system.strerror

/-- A POSIX system that logs its calls, the two ways of reading into a buffer as reads. -/
def traced (system : PosixSystem ω) : PosixSystem (ω × List SystemEvent) where
  toOperatingSystem := tracedOs system.toOperatingSystem
  readv := system.readv.map fun readv os fd size => logged (.read fd) os.2 (readv os.1 fd size)
  readinto := fun os fd size => logged (.read fd) os.2 (system.readinto os.1 fd size)

/-- What a part of a call logs and answers: all its system calls succeed and it raises no
alignment error, or the last of them fails and it raises the exception of that failure. -/
inductive Surfaces (translate : SystemCall → OsError → ExceptionClass) {α : Type} :
    List SystemEvent → Except PyException α → Prop
  | clean {events : List SystemEvent} {answer : Except PyException α}
    (hclean : ∀ event ∈ events, event.failure = none)
    (hplain : ∀ e, answer = .error e → ¬ e.IsA .alignmentError) :
    Surfaces translate events answer
  | failed {before : List SystemEvent} {call : SystemCall} {failure : OsError} {e : PyException}
    (hclean : ∀ event ∈ before, event.failure = none) (hraised : e.cls = translate call failure) :
    Surfaces translate (before ++ [⟨call, some failure⟩]) (.error e)

/-- A part that answers has logged no failure. -/
theorem Surfaces.clean_of_ok {translate : SystemCall → OsError → ExceptionClass} {α : Type}
    {events : List SystemEvent} {value : α}
    (h : Surfaces translate events (.ok value : Except PyException α)) :
    ∀ event ∈ events, event.failure = none := by
  cases h with
  | clean hclean _ => exact hclean

/-- What a part raises it raises whatever it would have answered. -/
theorem Surfaces.raised {translate : SystemCall → OsError → ExceptionClass} {α β : Type}
    {events : List SystemEvent} {e : PyException}
    (h : Surfaces translate events (.error e : Except PyException α)) :
    Surfaces translate events (.error e : Except PyException β) := by
  cases h with
  | clean hclean hplain =>
    refine .clean hclean fun raised hraised => ?_
    cases hraised
    exact hplain e rfl
  | failed hclean hraised => exact .failed hclean hraised

/-- Two parts after each other surface as the second does. -/
theorem Surfaces.after {translate : SystemCall → OsError → ExceptionClass} {α : Type}
    {first second : List SystemEvent} {answer : Except PyException α}
    (h : Surfaces translate second answer) (hfirst : ∀ event ∈ first, event.failure = none) :
    Surfaces translate (first ++ second) answer := by
  cases h with
  | clean hclean hplain =>
    refine .clean (fun event hevent => ?_) hplain
    exact (List.mem_append.mp hevent).elim (hfirst event) (hclean event)
  | failed hclean hraised =>
    rw [← List.append_assoc]
    refine .failed (fun event hevent => ?_) hraised
    exact (List.mem_append.mp hevent).elim (hfirst event) (hclean event)

/-- A part whose only system call fails. -/
theorem Surfaces.failedAlone {translate : SystemCall → OsError → ExceptionClass} {α : Type}
    {call : SystemCall} {failure : OsError} {e : PyException}
    (hraised : e.cls = translate call failure) :
    Surfaces translate [⟨call, some failure⟩] (.error e : Except PyException α) := by
  have hnone : ∀ event ∈ ([] : List SystemEvent), event.failure = none := List.forall_mem_nil _
  exact .failed hnone hraised

/-- One system call that succeeds logs no failure. -/
theorem clean_singleton (call : SystemCall) :
    ∀ event ∈ [SystemEvent.mk call none], event.failure = none := by
  intro event hevent
  rw [List.mem_singleton.mp hevent]

/-- A part that answers after successful system calls. -/
theorem Surfaces.ok {translate : SystemCall → OsError → ExceptionClass} {α : Type}
    {events : List SystemEvent} (hclean : ∀ event ∈ events, event.failure = none) (value : α) :
    Surfaces translate events (.ok value : Except PyException α) :=
  .clean hclean fun _ herror => by cases herror

/-- The class `from_errno` gives an error number. -/
def errnoClass (errno : ℤ) : SteveErrorClass :=
  if errno = 22 then .misalignedOffsetError
  else if errno = 28 then .storageExhaustedError
  else if errno = 5 ∨ errno = 77 then .hardwareIoError
  else if errno = 13 ∨ errno = 1 then .adapterError
  else if errno = 2 ∨ errno = 6 ∨ errno = 19 then .deviceNotFoundError
  else if errno = 110 ∨ errno = 111 ∨ errno = 113 then .connectionTimeoutError
  else .hardwareIoError

/-- The class does not depend on the message or the context. -/
theorem fromErrno_cls (e : OsError) (context : String) :
    (fromErrno e context).cls = .steve (errnoClass e.errno) := by
  unfold fromErrno errnoClass
  simp only [apply_ite PyException.cls, apply_ite ExceptionClass.steve]

/-- Make one transfer on the POSIX adapter; what the kernel answers does not concern it. -/
def AdapterCall.runPosix (system : PosixSystem ω) (adapter : PosixDirectIOAdapter ω)
    (call : AdapterCall) : Except PyException ℕ × PosixDirectIOAdapter ω :=
  match call.transfer with
  | .write => adapter.write system call.target call.offset call.buffer
  | .read =>
    let (answer, _, next) := adapter.read system call.target call.offset call.buffer
    (answer, next)

/-- The exceptions of failed system calls on the POSIX adapter. -/
def posixClass : SystemCall → OsError → ExceptionClass
  | .mkdirParents _, failure => .osError failure.errno
  | _, failure => .steve (errnoClass failure.errno)

/-- The exceptions of failed system calls on the `io_uring` adapter. -/
def ioUringClass : SystemCall → OsError → ExceptionClass
  | .openFile _ _, _ => .steve .adapterError
  | _, failure => .osError failure.errno

/-- An opening logs its answer. -/
theorem openFile_logged (system : OperatingSystem ω) (path : String)
    (os : ω × List SystemEvent) :
    (∃ failure next, (tracedOs system).openFile os path = (.error failure, next) ∧
      next.2 = os.2 ++ [⟨.openFile path none, some failure⟩]) ∨
    ∃ fd next, (tracedOs system).openFile os path = (.ok fd, next) ∧
      next.2 = os.2 ++ [⟨.openFile path (some fd), none⟩] := by
  simp only [tracedOs, logged]
  cases system.openFile os.1 path with
  | mk answer state =>
    cases answer with
    | error failure => exact Or.inl ⟨failure, _, rfl, rfl⟩
    | ok fd => exact Or.inr ⟨fd, _, rfl, rfl⟩

/-- Creating a parent directory logs nothing, a success, or its failure. -/
theorem ensureParent_logged (system : OperatingSystem ω) (path : String)
    (os : ω × List SystemEvent) :
    (∃ next events, IoUringTargetAdapter.ensureParent (tracedOs system) path os = (.ok (), next) ∧
        next.2 = os.2 ++ events ∧ ∀ event ∈ events, event.failure = none) ∨
      ∃ next failure,
        IoUringTargetAdapter.ensureParent (tracedOs system) path os = (.error failure, next) ∧
          next.2 = os.2 ++ [⟨.mkdirParents path, some failure⟩] := by
  unfold IoUringTargetAdapter.ensureParent
  split
  · exact Or.inl ⟨os, [], rfl, (List.append_nil _).symm, fun event hevent => by cases hevent⟩
  · cases hmkdir : system.mkdirParents os.1 path with
    | mk answer state =>
      simp only [tracedOs, logged, hmkdir]
      cases answer with
      | error failure => exact Or.inr ⟨_, failure, rfl, rfl⟩
      | ok _ => exact Or.inl ⟨_, _, rfl, rfl, clean_singleton _⟩

/-- Seek, then transfer, raising the failure of either. -/
def seekThen {σ α : Type} (raise : OsError → PyException) (seek : Except OsError Unit × σ)
    (transfer : σ → Except OsError α × σ) : Except PyException α × σ :=
  match seek with
  | (.error e, os) => (.error (raise e), os)
  | (.ok (), os) =>
    match transfer os with
    | (.error e, os) => (.error (raise e), os)
    | (.ok moved, os) => (.ok moved, os)

/-- Seeking and transferring surfaces. -/
theorem seekThen_surfaces (translate : SystemCall → OsError → ExceptionClass) {α : Type}
    (raise : OsError → PyException) (fd : ℕ) (call : SystemCall) (os : ω × List SystemEvent)
    (seek : ω → Except OsError Unit × ω) (transfer : ω → Except OsError α × ω)
    (hseek : ∀ failure, (raise failure).cls = translate (.lseek fd) failure)
    (htransfer : ∀ failure, (raise failure).cls = translate call failure) :
    ∃ events,
      (seekThen raise (logged (.lseek fd) os.2 (seek os.1))
        fun os => logged call os.2 (transfer os.1)).2.2 = os.2 ++ events ∧
      Surfaces translate events (seekThen raise (logged (.lseek fd) os.2 (seek os.1))
        fun os => logged call os.2 (transfer os.1)).1 := by
  unfold seekThen logged
  cases seek os.1 with
  | mk answer sought =>
    cases answer with
    | error failure => exact ⟨_, rfl, .failedAlone (hseek failure)⟩
    | ok _ =>
      simp only [failureOf]
      cases transfer sought with
      | mk answer moved =>
        cases answer with
        | error failure =>
          refine ⟨[⟨.lseek fd, none⟩] ++ [⟨call, some failure⟩], List.append_assoc _ _ _, ?_⟩
          exact .after (.failedAlone (htransfer failure)) (clean_singleton _)
        | ok value =>
          refine ⟨[⟨.lseek fd, none⟩] ++ [⟨call, none⟩], List.append_assoc _ _ _, ?_⟩
          exact .after (.ok (clean_singleton _) value) (clean_singleton _)

namespace PosixDirectIOAdapter

variable (system : PosixSystem ω)

/-- Getting a descriptor surfaces. -/
theorem getOrOpenFd_surfaces (adapter : PosixDirectIOAdapter (ω × List SystemEvent))
    (target : TargetDescriptor) :
    ∃ events, (adapter.getOrOpenFd (traced system) target).2.os.2 = adapter.os.2 ++ events ∧
      Surfaces posixClass events (adapter.getOrOpenFd (traced system) target).1 := by
  simp only [getOrOpenFd]
  cases adapter.fds.get? target.resourcePath with
  | some fd => exact ⟨[], (List.append_nil _).symm, .ok (fun event hevent => by cases hevent) fd⟩
  | none =>
    rcases ensureParent_logged system.toOperatingSystem target.resourcePath adapter.os with
      hparent | hparent
    · obtain ⟨next, events, hparent, hlog, hclean⟩ := hparent
      have hposix : ensureParent (traced system) target.resourcePath adapter.os =
        (.ok (), next) := hparent
      rcases openFile_logged system.toOperatingSystem target.resourcePath next with
        hopened | hopened
      · obtain ⟨failure, last, hopen, hlast⟩ := hopened
        change (traced system).openFile next target.resourcePath = _ at hopen
        simp only [hposix, hopen]
        refine ⟨events ++ [⟨.openFile target.resourcePath none, some failure⟩], ?_, ?_⟩
        · rw [hlast, hlog, List.append_assoc]
        · exact .after (.failedAlone (fromErrno_cls failure _)) hclean
      · obtain ⟨fd, last, hopen, hlast⟩ := hopened
        change (traced system).openFile next target.resourcePath = _ at hopen
        simp only [hposix, hopen]
        refine ⟨events ++ [⟨.openFile target.resourcePath (some fd), none⟩], ?_, ?_⟩
        · rw [hlast, hlog, List.append_assoc]
        · exact .after (.ok (clean_singleton _) fd) hclean
    · obtain ⟨next, failure, hparent, hlog⟩ := hparent
      have hposix : ensureParent (traced system) target.resourcePath adapter.os =
        (.error failure, next) := hparent
      simp only [hposix]
      exact ⟨_, hlog, .failedAlone rfl⟩

/-- A write past the alignment check and its opening seeks and writes. -/
theorem write_of_opened {σ : Type} {system : PosixSystem σ} {adapter next : PosixDirectIOAdapter σ}
    {target : TargetDescriptor} (offset : ℕ) {payload : DirectBuffer (List Byte)} {fd : ℕ}
    (hcheck : assertAlignment payload 4096 = none)
    (hopen : adapter.getOrOpenFd system target = (.ok fd, next)) :
    adapter.write system target offset payload =
      let moved := seekThen (fun e => fromErrno e s!"POSIX Direct I/O write failed at offset {offset}")
        (system.lseek next.os fd offset) fun os => system.write os fd payload.view
      (moved.1, { next with os := moved.2 }) := by
  simp only [write, hcheck, hopen, seekThen]
  cases system.lseek next.os fd offset with
  | mk answer sought =>
    cases answer with
    | error failure => rfl
    | ok _ =>
      simp only
      cases system.write sought fd payload.view with
      | mk answer written => cases answer <;> rfl

/-- A write past the alignment check surfaces. -/
theorem write_surfaces (adapter : PosixDirectIOAdapter (ω × List SystemEvent))
    (target : TargetDescriptor) (offset : ℕ) {payload : DirectBuffer (List Byte)}
    (hcheck : assertAlignment payload 4096 = none) :
    ∃ events,
      (adapter.write (traced system) target offset payload).2.os.2 = adapter.os.2 ++ events ∧
        Surfaces posixClass events (adapter.write (traced system) target offset payload).1 := by
  obtain ⟨events, hlog, hopened⟩ := getOrOpenFd_surfaces system adapter target
  cases hopen : adapter.getOrOpenFd (traced system) target with
  | mk answer next =>
    rw [hopen] at hlog hopened
    cases answer with
    | error e =>
      simp only [write, hcheck, hopen]
      exact ⟨events, hlog, hopened.raised⟩
    | ok fd =>
      rw [write_of_opened offset hcheck hopen]
      obtain ⟨moved, hmoved, hsurfaces⟩ := seekThen_surfaces posixClass _ fd (.write fd)
        next.os (fun os => system.lseek os fd offset)
        (fun os => system.write os fd payload.view) (fun failure => fromErrno_cls failure _)
        (fun failure => fromErrno_cls failure _)
      refine ⟨events ++ moved, ?_, hsurfaces.after hopened.clean_of_ok⟩
      rw [← List.append_assoc, ← hlog]
      exact hmoved

/-- The transfer of a read seeks and reads, by the vectored call where there is one, and
without a system call where the file object is missing. -/
theorem transferInto_eq {σ : Type} (system : PosixSystem σ) (path : String) (fd offset size : ℕ)
    (adapter : PosixDirectIOAdapter σ) :
    adapter.transferInto system path fd offset size =
      let raise : OsError → PyException :=
        fun e => fromErrno e s!"POSIX Direct I/O read failed at offset {offset}"
      match system.readv, adapter.fileIos.get? path with
      | some readv, _ => seekThen raise (system.lseek adapter.os fd offset)
          fun os => readv os fd size
      | none, some file => seekThen raise (system.lseek adapter.os file offset) fun os =>
          let moved := system.readinto os file size
          (moved.1.map fun data => data.getD [], moved.2)
      | none, none => (.error ⟨.other "KeyError", s!"'{path}'"⟩, adapter.os) := by
  simp only [transferInto]
  cases system.readv with
  | some readv =>
    simp only [seekThen]
    cases system.lseek adapter.os fd offset with
    | mk answer sought =>
      cases answer with
      | error failure => rfl
      | ok _ =>
        simp only
        cases readv sought fd size with
        | mk answer moved => cases answer <;> rfl
  | none =>
    cases adapter.fileIos.get? path with
    | none => rfl
    | some file =>
      simp only [seekThen]
      cases system.lseek adapter.os file offset with
      | mk answer sought =>
        cases answer with
        | error failure => rfl
        | ok _ =>
          simp only
          cases system.readinto sought file size with
          | mk answer moved => cases answer <;> rfl

/-- The transfer of a read surfaces. -/
theorem transferInto_surfaces (path : String) (fd offset size : ℕ)
    (adapter : PosixDirectIOAdapter (ω × List SystemEvent)) :
    ∃ events,
      (adapter.transferInto (traced system) path fd offset size).2.2 = adapter.os.2 ++ events ∧
        Surfaces posixClass events
          (adapter.transferInto (traced system) path fd offset size).1 := by
  rw [transferInto_eq]
  have hread (failure : OsError) : (fromErrno failure
      s!"POSIX Direct I/O read failed at offset {offset}").cls = .steve (errnoClass failure.errno) :=
    fromErrno_cls failure _
  cases hreadv : system.readv with
  | some readv =>
    simp only [traced, hreadv, Option.map_some]
    exact seekThen_surfaces posixClass _ fd (.read fd) adapter.os
      (fun os => system.lseek os fd offset) (fun os => readv os fd size) hread hread
  | none =>
    cases adapter.fileIos.get? path with
    | none =>
      simp only [traced, hreadv, Option.map_none]
      refine ⟨[], (List.append_nil _).symm, .clean (List.forall_mem_nil _) fun e herror => ?_⟩
      cases herror
      rw [PyException.isA_alignmentError_iff]
      simp
    | some file =>
      simp only [traced, hreadv, Option.map_none]
      simp only [logged_map]
      exact seekThen_surfaces posixClass _ file (.read file) adapter.os
        (fun os => system.lseek os file offset)
        (fun os => ((system.readinto os file size).1.map fun data => data.getD [],
          (system.readinto os file size).2)) hread hread

/-- A read past the alignment check surfaces. -/
theorem read_surfaces (adapter : PosixDirectIOAdapter (ω × List SystemEvent))
    (target : TargetDescriptor) (offset : ℕ) {buffer : DirectBuffer (List Byte)}
    (hcheck : assertAlignment buffer 4096 = none) :
    ∃ events,
      (adapter.read (traced system) target offset buffer).2.2.os.2 = adapter.os.2 ++ events ∧
        Surfaces posixClass events (adapter.read (traced system) target offset buffer).1 := by
  obtain ⟨events, hlog, hopened⟩ := getOrOpenFd_surfaces system adapter target
  simp only [read, hcheck]
  cases hopen : adapter.getOrOpenFd (traced system) target with
  | mk answer next =>
    rw [hopen] at hlog hopened
    cases answer with
    | error e => exact ⟨events, hlog, hopened.raised⟩
    | ok fd =>
      simp only
      obtain ⟨moved, hmoved, hsurfaces⟩ :=
        transferInto_surfaces system target.resourcePath fd offset buffer.view.length next
      cases htransfer : next.transferInto (traced system) target.resourcePath fd offset
        buffer.view.length with
      | mk answer os =>
        rw [htransfer] at hmoved hsurfaces
        have hmore : os.2 = adapter.os.2 ++ (events ++ moved) := by
          rw [← List.append_assoc, ← hlog]
          exact hmoved
        cases answer with
        | error e => exact ⟨_, hmore, hsurfaces.raised.after hopened.clean_of_ok⟩
        | ok data =>
          exact ⟨_, hmore, (Surfaces.ok hsurfaces.clean_of_ok _).after hopened.clean_of_ok⟩

/-- A transfer past the alignment check surfaces. -/
theorem runPosix_surfaces (adapter : PosixDirectIOAdapter (ω × List SystemEvent))
    {call : AdapterCall} (hcheck : assertAlignment call.buffer 4096 = none) :
    ∃ events, (call.runPosix (traced system) adapter).2.os.2 = adapter.os.2 ++ events ∧
      Surfaces posixClass events (call.runPosix (traced system) adapter).1 := by
  unfold AdapterCall.runPosix
  cases call.transfer with
  | write => exact write_surfaces system adapter call.target call.offset hcheck
  | read => exact read_surfaces system adapter call.target call.offset hcheck

end PosixDirectIOAdapter

end Steve.Adapters
