import Steve.Adapters.DescriptorTable
import Steve.Adapters.ErrorTranslation

/-!
# Descriptor bookkeeping

Both adapters cache the descriptors they open. After every call the log of system calls
settles to the cache, whatever fails on the way, and to nothing after a close.
-/

namespace Steve.Adapters

open Steve.Library

variable {ω : Type}

section Posix

variable {system : PosixSystem ω} {table : PosixDescriptorTable system}

/-- The descriptors of a POSIX adapter are accounted for, and its file objects are on them. -/
structure PosixAccounts (table : PosixDescriptorTable system)
    (adapter : PosixDirectIOAdapter (ω × List SystemEvent)) : Prop where
  accounts : Accounts table.toDescriptorTable adapter.os adapter.fds
  sameKeys : adapter.fileIos.keys = adapter.fds.keys

namespace PosixAccounts

variable {adapter : PosixDirectIOAdapter (ω × List SystemEvent)}

/-- A quiet system call keeps the accounts. -/
theorem withOs (h : PosixAccounts table adapter) {os : ω × List SystemEvent}
    (hquiet : Quiet table.toDescriptorTable adapter.os os) :
    PosixAccounts table { adapter with os := os } :=
  ⟨h.accounts.of_quiet hquiet, h.sameKeys⟩

/-- Getting a descriptor keeps the accounts, whether it is cached, opened or refused. -/
theorem getOrOpenFd (h : PosixAccounts table adapter) (target : TargetDescriptor) :
    PosixAccounts table (adapter.getOrOpenFd (traced system) target).2 := by
  simp only [PosixDirectIOAdapter.getOrOpenFd]
  cases hcached : adapter.fds.get? target.resourcePath with
  | some fd => exact h
  | none =>
    have hpath := Dict.notMem_keys_of_get?_eq_none hcached
    cases hmkdir : PosixDirectIOAdapter.ensureParent (traced system) target.resourcePath
      adapter.os with
    | mk answer parent =>
      obtain ⟨hparent, hrefused, hopened⟩ := h.accounts.openMissing hpath hmkdir
      cases answer with
      | error e => exact ⟨hparent, h.sameKeys⟩
      | ok _ =>
        simp only
        cases hopen : (traced system).openFile parent target.resourcePath with
        | mk answer next =>
          cases answer with
          | error e => exact ⟨hrefused e next hopen, h.sameKeys⟩
          | ok fd =>
            refine ⟨hopened fd next hopen, ?_⟩
            rw [Dict.keys_set, Dict.keys_set, h.sameKeys]

/-- Moving bytes into a buffer is quiet. -/
theorem quiet_transferInto (table : PosixDescriptorTable system) (path : String)
    (fd offset count : ℕ) (adapter : PosixDirectIOAdapter (ω × List SystemEvent)) :
    Quiet table.toDescriptorTable adapter.os
      (adapter.transferInto (traced system) path fd offset count).2 := by
  rw [PosixDirectIOAdapter.transferInto_eq]
  have hseek (fd : ℕ) := quiet_logged (.lseek fd) _ (fun _ => rfl)
    (table.lseek adapter.os.1 fd offset)
  cases hreadv : system.readv with
  | some readv =>
    simp only [traced, hreadv, Option.map_some]
    exact quiet_seekThen _ (hseek fd) fun state =>
      quiet_logged (.read fd) _ (fun _ => rfl) (table.readv readv hreadv state.1 fd count)
  | none =>
    simp only [traced, hreadv, Option.map_none]
    cases adapter.fileIos.get? path with
    | none => exact Quiet.refl adapter.os
    | some file =>
      exact quiet_seekThen _ (hseek file) fun state =>
        quiet_logged (.read file) (system.readinto state.1 file count) (fun _ => rfl)
          (table.readinto state.1 file count)

/-- A write keeps the accounts. -/
theorem write (h : PosixAccounts table adapter) (target : TargetDescriptor) (offset : ℕ)
    (payload : DirectBuffer (List Byte)) :
    PosixAccounts table (adapter.write (traced system) target offset payload).2 := by
  cases hcheck : assertAlignment payload 4096 with
  | some e =>
    simp only [PosixDirectIOAdapter.write, hcheck]
    exact h
  | none =>
    have hopened := h.getOrOpenFd target
    cases hopen : adapter.getOrOpenFd (traced system) target with
    | mk answer next =>
      rw [hopen] at hopened
      cases answer with
      | error e =>
        simp only [PosixDirectIOAdapter.write, hcheck, hopen]
        exact hopened
      | ok fd =>
        rw [PosixDirectIOAdapter.write_of_opened offset hcheck hopen]
        exact hopened.withOs (quiet_seekThen _
          (quiet_logged (.lseek fd) _ (fun _ => rfl) (table.lseek next.os.1 fd offset))
          fun state => quiet_logged (.write fd) _ (fun _ => rfl)
            (table.write state.1 fd payload.view))

/-- A read keeps the accounts. -/
theorem read (h : PosixAccounts table adapter) (target : TargetDescriptor) (offset : ℕ)
    (buffer : DirectBuffer (List Byte)) :
    PosixAccounts table (adapter.read (traced system) target offset buffer).2.2 := by
  simp only [PosixDirectIOAdapter.read]
  cases assertAlignment buffer 4096 with
  | some e => exact h
  | none =>
    have hopened := h.getOrOpenFd target
    cases hopen : adapter.getOrOpenFd (traced system) target with
    | mk answer next =>
      rw [hopen] at hopened
      cases answer with
      | error e => exact hopened
      | ok fd =>
        have hquiet := quiet_transferInto table target.resourcePath fd offset
          buffer.view.length next
        simp only
        cases htransfer : next.transferInto (traced system) target.resourcePath fd offset
          buffer.view.length with
        | mk answer os =>
          rw [htransfer] at hquiet
          cases answer with
          | error e => exact hopened.withOs hquiet
          | ok data => exact hopened.withOs hquiet

/-- A flush keeps the accounts. -/
theorem flush (h : PosixAccounts table adapter) (target : TargetDescriptor) :
    PosixAccounts table (adapter.flush (traced system) target).2 := by
  simp only [PosixDirectIOAdapter.flush]
  cases adapter.fds.get? target.resourcePath with
  | none => exact h
  | some fd =>
    have hquiet := quiet_logged (.fsync fd) _ (fun _ => rfl) (table.fsync adapter.os.1 fd)
    change Quiet _ _ ((traced system).fsync adapter.os fd).2 at hquiet
    simp only
    cases hsync : (traced system).fsync adapter.os fd with
    | mk answer os =>
      rw [hsync] at hquiet
      cases answer with
      | error e => exact h.withOs hquiet
      | ok _ => exact h.withOs hquiet

/-- A close leaves nothing to account for. -/
theorem close (h : PosixAccounts table adapter) :
    PosixAccounts table (adapter.close (traced system)) :=
  ⟨h.accounts.closedAll, rfl⟩

end PosixAccounts

end Posix

/-- A call on an adapter: a transfer, a flush with the code of its submission, or a close. -/
inductive AdapterRequest
  | transfer (call : AdapterCall)
  | flush (target : TargetDescriptor) (submitCode : ℤ)
  | close

/-- Serve a call on the POSIX adapter. -/
def AdapterRequest.servePosix (system : PosixSystem ω) (adapter : PosixDirectIOAdapter ω) :
    AdapterRequest → PosixDirectIOAdapter ω
  | .transfer call => (call.runPosix system adapter).2
  | .flush target _ => (adapter.flush system target).2
  | .close => adapter.close system

/-- Serve a call on the `io_uring` adapter. -/
def AdapterRequest.serveIoUring (system : OperatingSystem ω) (adapter : IoUringTargetAdapter ω) :
    AdapterRequest → IoUringTargetAdapter ω
  | .transfer call => (call.run system adapter).2
  | .flush target submitCode => adapter.flush system submitCode target
  | .close => adapter.close system

/-- Every call on the POSIX adapter keeps the accounts. -/
theorem PosixAccounts.served {system : PosixSystem ω} {table : PosixDescriptorTable system}
    {adapter : PosixDirectIOAdapter (ω × List SystemEvent)} (h : PosixAccounts table adapter)
    (request : AdapterRequest) : PosixAccounts table (request.servePosix (traced system) adapter) := by
  cases request with
  | transfer call =>
    simp only [AdapterRequest.servePosix, AdapterCall.runPosix]
    cases call.transfer with
    | write => exact h.write call.target call.offset call.buffer
    | read => exact h.read call.target call.offset call.buffer
  | flush target submitCode => exact h.flush target
  | close => exact h.close

section IoUring

variable {system : OperatingSystem ω} {table : DescriptorTable system}

/-- Getting a descriptor keeps the accounts of the `io_uring` adapter. -/
theorem Accounts.getOrOpenFd {adapter : IoUringTargetAdapter (ω × List SystemEvent)}
    (h : Accounts table adapter.os adapter.fds) (target : TargetDescriptor) :
    Accounts table (adapter.getOrOpenFd (tracedOs system) target).2.os
      (adapter.getOrOpenFd (tracedOs system) target).2.fds := by
  simp only [IoUringTargetAdapter.getOrOpenFd]
  cases hcached : adapter.fds.get? target.resourcePath with
  | some fd => exact h
  | none =>
    have hpath := Dict.notMem_keys_of_get?_eq_none hcached
    cases hmkdir : IoUringTargetAdapter.ensureParent (tracedOs system) target.resourcePath
      adapter.os with
    | mk answer parent =>
      obtain ⟨hparent, hrefused, hopened⟩ := h.openMissing hpath hmkdir
      cases answer with
      | error e => exact hparent
      | ok _ =>
        simp only
        cases hopen : (tracedOs system).openFile parent target.resourcePath with
        | mk answer next =>
          cases answer with
          | error e => exact hrefused e next hopen
          | ok fd => exact hopened fd next hopen

/-- Falling back is quiet and opens nothing. -/
theorem quiet_fallback (table : DescriptorTable system)
    (adapter : IoUringTargetAdapter (ω × List SystemEvent)) (fd : ℕ) (call : AdapterCall) :
    Quiet table adapter.os (call.fallback (tracedOs system) adapter fd).2.os ∧
      (call.fallback (tracedOs system) adapter fd).2.fds = adapter.fds := by
  have hseek := quiet_logged (.lseek fd) _ (fun _ => rfl)
    (table.lseek adapter.os.1 fd call.offset)
  unfold AdapterCall.fallback
  cases call.transfer with
  | write =>
    simp only [IoUringTargetAdapter.fallbackWrite_eq]
    exact ⟨quiet_seekThen _ hseek fun state => quiet_logged (.write fd) _ (fun _ => rfl)
      (table.write state.1 fd call.buffer.view), trivial⟩
  | read =>
    simp only [IoUringTargetAdapter.fallbackRead_eq]
    exact ⟨quiet_seekThen _ hseek fun state => quiet_logged (.read fd) _ (fun _ => rfl)
      (table.read state.1 fd call.buffer.size), trivial⟩

/-- What a transfer does before it moves anything keeps the accounts. -/
theorem Accounts.prepared {adapter : IoUringTargetAdapter (ω × List SystemEvent)}
    (h : Accounts table adapter.os adapter.fds) (call : AdapterCall) :
    Accounts table (call.prepared (tracedOs system) adapter).2.os
      (call.prepared (tracedOs system) adapter).2.fds := by
  simp only [AdapterCall.prepared, IoUringTargetAdapter.prepareTransfer]
  by_cases hinit : adapter.Initializes call.kernel.initCode
  · obtain ⟨ready, hready, -, hos, hfds⟩ := initializeAdapter_ok (tracedOs system) hinit
    have hkept : Accounts table ready.os ready.fds := by
      rw [hos, hfds]
      exact h
    rw [hready]
    cases IoUringTargetAdapter.verifyAlignment call.buffer call.offset with
    | some e => exact hkept
    | none => exact hkept.getOrOpenFd call.target
  · obtain ⟨e, he, -⟩ := initializeAdapter_error (tracedOs system) hinit
    rw [he]
    exact h

/-- A transfer keeps the accounts of the `io_uring` adapter. -/
theorem Accounts.run {adapter : IoUringTargetAdapter (ω × List SystemEvent)}
    (h : Accounts table adapter.os adapter.fds) (call : AdapterCall) :
    Accounts table (call.run (tracedOs system) adapter).2.os
      (call.run (tracedOs system) adapter).2.fds := by
  have hprepared := h.prepared call
  cases hanswer : call.prepared (tracedOs system) adapter with
  | mk answer next =>
    rw [hanswer] at hprepared
    cases answer with
    | error e =>
      rw [run_of_prepared_error _ hanswer]
      exact hprepared
    | ok fd =>
      cases hring : next.ring with
      | none =>
        obtain ⟨hquiet, hfds⟩ := quiet_fallback table next fd call
        rw [run_of_prepared_fallback _ hanswer hring, hfds]
        exact hprepared.of_quiet hquiet
      | some ring =>
        rw [run_of_prepared_ok _ hanswer hring]
        exact hprepared

/-- Closing descriptors leaves nothing to account for, and no descriptor. -/
theorem Accounts.close {adapter : IoUringTargetAdapter (ω × List SystemEvent)}
    (h : Accounts table adapter.os adapter.fds) :
    Accounts table (adapter.close (tracedOs system)).os (adapter.close (tracedOs system)).fds ∧
      (adapter.close (tracedOs system)).fds = Dict.empty := by
  simp only [IoUringTargetAdapter.close]
  split
  · split
    · exact ⟨h.closedAll, rfl⟩
    · exact ⟨h.closedAll, rfl⟩
  · exact ⟨h.closedAll, rfl⟩

/-- A flush keeps the accounts of the `io_uring` adapter. -/
theorem Accounts.flush {adapter : IoUringTargetAdapter (ω × List SystemEvent)}
    (h : Accounts table adapter.os adapter.fds) (submitCode : ℤ) (target : TargetDescriptor) :
    Accounts table (adapter.flush (tracedOs system) submitCode target).os
      (adapter.flush (tracedOs system) submitCode target).fds := by
  simp only [IoUringTargetAdapter.flush]
  generalize hsubmitted : (if adapter.initialized then
      { adapter with ring := adapter.ring.map fun ring => ring.submit submitCode }
    else adapter) = submitted
  have hkept : Accounts table submitted.os submitted.fds := by
    rw [← hsubmitted]
    split <;> exact h
  cases submitted.fds.get? target.resourcePath with
  | none => exact hkept
  | some fd =>
    exact hkept.of_quiet
      (quiet_logged (.fsync fd) _ (fun _ => rfl) (table.fsync submitted.os.1 fd))

/-- Every call on the `io_uring` adapter keeps the accounts. -/
theorem Accounts.served {adapter : IoUringTargetAdapter (ω × List SystemEvent)}
    (h : Accounts table adapter.os adapter.fds) (request : AdapterRequest) :
    Accounts table (request.serveIoUring (tracedOs system) adapter).os
      (request.serveIoUring (tracedOs system) adapter).fds := by
  cases request with
  | transfer call => exact h.run call
  | flush target submitCode => exact h.flush submitCode target
  | close => exact h.close.1

/-- A second close of the `io_uring` adapter does nothing. -/
theorem close_close (adapter : IoUringTargetAdapter ω) :
    (adapter.close system).close system = adapter.close system := by
  cases hring : adapter.ring with
  | none => simp [IoUringTargetAdapter.close, hring, Dict.values, Dict.empty]
  | some ring =>
    by_cases hinitialized : adapter.initialized = true
    · simp [IoUringTargetAdapter.close, hring, hinitialized, Dict.values, Dict.empty]
    · simp [IoUringTargetAdapter.close, hring, hinitialized, Dict.values, Dict.empty]

end IoUring

/-- Every descriptor a log opens it closes, before its number is opened again and as often. -/
structure AllClosed (log : List SystemEvent) : Prop where
  settled : settle (descriptorLedger log) = some []
  balanced : ∀ fd, acquisitions (descriptorLedger log) fd = releases (descriptorLedger log) fd

/-- Accounts without a cached descriptor are closed. -/
theorem Accounts.allClosed {system : OperatingSystem ω} {table : DescriptorTable system}
    {os : ω × List SystemEvent} (h : Accounts table os Dict.empty) : AllClosed os.2 :=
  ⟨h.settled, fun fd => settle_balance h.settled fd⟩

/-- A POSIX adapter's descriptors are accounted for; a close closes them all and forgets them,
and a second one does nothing. -/
structure PosixKept {system : PosixSystem ω} (table : PosixDescriptorTable system)
    (adapter : PosixDirectIOAdapter (ω × List SystemEvent)) : Prop where
  accounts : PosixAccounts table adapter
  closedAll : AllClosed (adapter.close (traced system)).os.2
  forgotten : (adapter.close (traced system)).fds = Dict.empty ∧
    (adapter.close (traced system)).fileIos = Dict.empty
  closedOnce : (adapter.close (traced system)).close (traced system) =
    adapter.close (traced system)

/-- The same of an `io_uring` adapter. -/
structure IoUringKept {system : OperatingSystem ω} (table : DescriptorTable system)
    (adapter : IoUringTargetAdapter (ω × List SystemEvent)) : Prop where
  accounts : Accounts table adapter.os adapter.fds
  closedAll : AllClosed (adapter.close (tracedOs system)).os.2
  forgotten : (adapter.close (tracedOs system)).fds = Dict.empty
  closedOnce : (adapter.close (tracedOs system)).close (tracedOs system) =
    adapter.close (tracedOs system)

/-- Whatever is asked of a new adapter of either kind, and whatever fails on the way, its
descriptors are kept. -/
theorem descriptors_kept {system : PosixSystem ω} (table : PosixDescriptorTable system) (os : ω)
    (hasRing : Bool) (queueDepth : ℕ) (requests : List AdapterRequest) :
    PosixKept table (requests.foldl (AdapterRequest.servePosix (traced system))
        (PosixDirectIOAdapter.init (os, []))) ∧
      IoUringKept table.toDescriptorTable
        (requests.foldl (AdapterRequest.serveIoUring (tracedOs system.toOperatingSystem))
          (IoUringTargetAdapter.init hasRing queueDepth (os, []))) := by
  have hposix : PosixAccounts table (requests.foldl (AdapterRequest.servePosix (traced system))
      (PosixDirectIOAdapter.init (os, []))) := by
    refine List.foldlRecOn requests _ ⟨⟨rfl, List.forall_mem_nil _⟩, rfl⟩ ?_
    intro adapter hadapter request _
    exact hadapter.served request
  let Kept (adapter : IoUringTargetAdapter (ω × List SystemEvent)) : Prop :=
    Accounts table.toDescriptorTable adapter.os adapter.fds
  have hioUring : Kept (requests.foldl
      (AdapterRequest.serveIoUring (tracedOs system.toOperatingSystem))
      (IoUringTargetAdapter.init hasRing queueDepth (os, []))) := by
    refine List.foldlRecOn requests _ ⟨rfl, List.forall_mem_nil _⟩ ?_
    intro adapter hadapter request _
    exact Accounts.served hadapter request
  obtain ⟨hclosed, hforgotten⟩ := Accounts.close hioUring
  refine ⟨⟨hposix, hposix.close.accounts.allClosed, ⟨rfl, rfl⟩, rfl⟩, hioUring, ?_, hforgotten,
    close_close _⟩
  rw [hforgotten] at hclosed
  exact hclosed.allClosed

namespace Disk

/-- A descriptor of a disk is open if it points into a file. -/
def IsOpen (disk : Disk) (fd : ℕ) : Prop := (disk.view.descriptor fd).isSome = true

/-- Pointing an open descriptor elsewhere opens and closes nothing. -/
theorem isOpen_update {disk next : Disk} {fd : ℕ} (h : disk.IsOpen fd) (entry : String × ℕ)
    (hnext : next.view.descriptor = Function.update disk.view.descriptor fd (some entry))
    (other : ℕ) : next.IsOpen other ↔ disk.IsOpen other := by
  rw [IsOpen, hnext]
  by_cases hsame : other = fd
  · rw [hsame, Function.update_self]
    exact iff_of_true rfl h
  · rw [Function.update_of_ne hsame]
    rfl

/-- A call on a descriptor keeps the table if it does on an open one. -/
theorem isOpen_onOpen {A : Type} {disk : Disk} {fd : ℕ} (call : String → ℕ → A × Disk)
    (h : disk.IsOpen fd → ∀ file cursor other, fd < disk.table.length →
      ((call file cursor).2.IsOpen other ↔ disk.IsOpen other)) (other : ℕ) :
    (disk.onOpen fd call).2.IsOpen other ↔ disk.IsOpen other := by
  unfold onOpen
  split
  · exact Iff.rfl
  · rename_i file cursor hopen
    exact h (by rw [IsOpen, hopen]; rfl) file cursor other (lt_of_descriptor hopen)

/-- A seek keeps the table. -/
theorem isOpen_seek {disk : Disk} {fd : ℕ} (h : disk.IsOpen fd) (hfd : fd < disk.table.length)
    (file : String) (cursor other : ℕ) :
    (disk.seek fd file cursor).IsOpen other ↔ disk.IsOpen other :=
  isOpen_update h (file, cursor) (by rw [view_seek hfd, FileView.setDescriptor]) other

/-- So does a read. -/
theorem isOpen_readAvailable (disk : Disk) (fd size other : ℕ) :
    (disk.readAvailable fd size).2.IsOpen other ↔ disk.IsOpen other :=
  isOpen_onOpen _ (fun hopen _ _ other hfd => isOpen_seek hopen hfd _ _ other) other

end Disk

/-- The table of a disk. -/
def diskTable (moved : ℕ → ℕ → ℕ) : PosixDescriptorTable (diskSystem moved) where
  isOpen := Disk.IsOpen
  mkdirParents := fun _ _ _ => Iff.rfl
  openFile_ok := by
    intro disk path fd next h
    cases h
    obtain ⟨hfree, hview⟩ := disk.view_open path
    refine ⟨by rw [Disk.IsOpen, hfree]; exact Bool.false_ne_true, fun other => ?_⟩
    rw [Disk.IsOpen, hview, FileView.setDescriptor, Disk.IsOpen]
    by_cases hsame : other = disk.table.length
    · simp [hsame]
    · simp [hsame]
  openFile_error := by
    intro disk path e next h
    cases h
  lseek := fun disk fd offset other =>
    Disk.isOpen_onOpen _ (fun hopen _ _ other hfd => Disk.isOpen_seek hopen hfd _ _ other) other
  write := by
    intro disk fd bytes other
    have hkept (hopen : disk.IsOpen fd) (file : String) (cursor other : ℕ)
        (hfd : fd < disk.table.length) := Disk.isOpen_update hopen _
      (congrArg FileView.descriptor (Disk.view_transfer hfd file cursor
        (bytes.take (disk.moves moved bytes)))) other
    exact Disk.isOpen_onOpen _ hkept other
  read := fun disk fd size other => disk.isOpen_readAvailable fd size.toNat other
  fsync := by
    intro disk fd other
    exact Disk.isOpen_onOpen (fun _ _ => ((), disk)) (fun _ _ _ _ _ => Iff.rfl) other
  closeFile := by
    intro disk fd other
    change (disk.table.set fd none)[other]?.join.isSome = true ↔
      other ≠ fd ∧ disk.table[other]?.join.isSome = true
    rw [List.getElem?_set]
    by_cases hsame : fd = other
    · rw [if_pos hsame]
      split
      · simp [hsame]
      · simp [hsame]
    · simp [hsame, Ne.symm hsame]
  readv := by
    intro transfer htransfer disk fd size other
    cases htransfer
    exact disk.isOpen_readAvailable fd size other
  readinto := fun disk fd size other => disk.isOpen_readAvailable fd size other

/-- Two writes, a flush and a close on a disk leave both adapters' descriptors kept. -/
theorem descriptors_kept_on_disk :
    let system := diskSystem fun _ length => length
    let requests : List AdapterRequest := [.transfer (pageWrite 4096),
      .transfer halfPageWrite, .flush ⟨"file://local", "mock_iouring.dat"⟩ 0, .close]
    PosixKept (diskTable fun _ length => length)
        (requests.foldl (AdapterRequest.servePosix (traced system))
          (PosixDirectIOAdapter.init (Disk.empty, []))) ∧
      IoUringKept (diskTable fun _ length => length).toDescriptorTable
        (requests.foldl (AdapterRequest.serveIoUring (tracedOs system.toOperatingSystem))
          (IoUringTargetAdapter.init true 64 (Disk.empty, []))) := by
  intro system requests
  exact descriptors_kept (diskTable fun _ length => length) Disk.empty true 64 requests

end Steve.Adapters
