import Steve.Adapters.Disk
import Steve.Adapters.FileStore
import Steve.Library.StepSystem

/-!
# The file-backed adapters refine the store

On a reliable file system with distinct files for distinct paths, every call of either
adapter answers as the store does and leaves a cache and a system that represent the store's
next state. So whole sequences of calls are answered alike, closes and reopenings included.
-/

namespace Steve.Adapters

open Steve.Library

variable {ω : Type} {F : Type} [DecidableEq F] {system : PosixSystem ω}
  {semantics : FileSemantics F system.toOperatingSystem} {paths : Set String}
  {store : String → List Byte}

section SystemCalls

variable {fds : Dict String ℕ} {os : ω} {path : String} {fd : ℕ}

/-- A seek on a cached descriptor succeeds and leaves its cursor at the position. -/
theorem Represents.lseek (h : Represents semantics paths fds os store)
    (hreliable : semantics.Reliable paths) (hfd : fds.get? path = some fd) (position : ℕ) :
    ∃ next, system.lseek os fd position = (.ok (), next) ∧
      Represents semantics paths fds next store ∧
      (semantics.view next).descriptor fd = some (semantics.fileOf path, position) := by
  obtain ⟨cursor, hopen⟩ := h.cached path fd hfd
  have hcall : system.lseek os fd position = (.ok (), (system.lseek os fd position).2) :=
    Prod.ext (hreliable.lseek os fd _ cursor position hopen) rfl
  have hview := semantics.lseek os fd _ cursor position _ hopen hcall
  refine ⟨_, hcall, h.setDescriptor hopen hview, ?_⟩
  rw [hview, FileView.setDescriptor_self]

/-- A write at a cached descriptor's cursor writes the store at its path. -/
theorem Represents.write (h : Represents semantics paths fds os store)
    (hreliable : semantics.Reliable paths) (hdistinct : Set.InjOn semantics.fileOf paths)
    (hpath : path ∈ paths) {position : ℕ}
    (hopen : (semantics.view os).descriptor fd = some (semantics.fileOf path, position))
    (data : List Byte) :
    ∃ next, system.write os fd data = (.ok data.length, next) ∧
      Represents semantics paths fds next
        (Function.update store path (writeAt (store path) position data)) := by
  have hcall : system.write os fd data = (.ok data.length, (system.write os fd data).2) :=
    Prod.ext (hreliable.write os fd _ position data hopen) rfl
  obtain ⟨-, -, hview⟩ := semantics.write os fd _ position data _ _ hopen hcall
  rw [List.take_length] at hview
  exact ⟨_, hcall, h.transfer hdistinct hpath hopen hview⟩

/-- A complete read at a cached descriptor's cursor moves the store's bytes at its path. -/
theorem Represents.read (h : Represents semantics paths fds os store) (hpath : path ∈ paths)
    {call : ω → ℕ → ℕ → Except OsError (List Byte) × ω} (hcall : ReadsAll semantics call)
    {position : ℕ}
    (hopen : (semantics.view os).descriptor fd = some (semantics.fileOf path, position))
    (size : ℕ) :
    ∃ next, call os fd size = (.ok (readAt (store path) position size), next) ∧
      Represents semantics paths fds next store := by
  obtain ⟨next, moved, hmoved, hview⟩ := hcall os fd _ position size hopen
  rw [h.content path hpath] at hmoved
  exact ⟨next, hmoved, h.setDescriptor hopen hview⟩

/-- Opening a path that is not cached, its parent directory first, succeeds. -/
theorem Represents.openFile (h : Represents semantics paths fds os store)
    (hreliable : semantics.Reliable paths) (hpath : path ∈ paths) {parent : Except OsError Unit × ω}
    (hparent : parent = (.ok (), os) ∨ parent = system.mkdirParents os path) :
    ∃ ready fd next, parent = (.ok (), ready) ∧ system.openFile ready path = (.ok fd, next) ∧
      Represents semantics paths (fds.set path fd) next store := by
  have hready : ∃ ready, parent = (.ok (), ready) ∧ semantics.view ready = semantics.view os := by
    cases hparent with
    | inl hexists => exact ⟨os, hexists, rfl⟩
    | inr hmkdir =>
      refine ⟨(system.mkdirParents os path).2, ?_, semantics.mkdirParents os path⟩
      rw [hmkdir]
      exact Prod.ext (hreliable.mkdirParents os path hpath) rfl
  obtain ⟨ready, hparent, hview⟩ := hready
  obtain ⟨fd, hfd⟩ := hreliable.openFile ready path hpath
  have hopened : system.openFile ready path = (.ok fd, (system.openFile ready path).2) :=
    Prod.ext hfd rfl
  exact ⟨ready, fd, _, hparent, hopened, (h.of_view_eq hview).set hopened⟩

/-- Closing descriptors leaves the bytes of all files. -/
theorem content_closeAll (hreliable : semantics.Reliable paths) (opened : List ℕ) (os : ω) :
    (semantics.view (opened.foldl (fun os fd => (system.closeFile os fd).2) os)).content =
      (semantics.view os).content := by
  induction opened generalizing os with
  | nil => rfl
  | cons fd rest ih => rw [List.foldl_cons, ih, hreliable.closeFile]

end SystemCalls

section Posix

variable {adapter : PosixDirectIOAdapter ω}

/-- The direct I/O adapter's state represents a store, with a file object for every cached
descriptor. -/
structure PosixRepresents (semantics : FileSemantics F system.toOperatingSystem)
    (paths : Set String) (adapter : PosixDirectIOAdapter ω) (store : String → List Byte) :
    Prop where
  represents : Represents semantics paths adapter.fds adapter.os store
  fileIos : adapter.fileIos = adapter.fds

/-- Getting a descriptor succeeds and caches it. -/
theorem PosixRepresents.getOrOpenFd (h : PosixRepresents semantics paths adapter store)
    (hreliable : semantics.Reliable paths) {target : TargetDescriptor}
    (hpath : target.resourcePath ∈ paths) :
    ∃ fd next, adapter.getOrOpenFd system target = (.ok fd, next) ∧
      PosixRepresents semantics paths next store ∧
      next.fds.get? target.resourcePath = some fd := by
  simp only [PosixDirectIOAdapter.getOrOpenFd]
  cases hcached : adapter.fds.get? target.resourcePath with
  | some fd => exact ⟨fd, adapter, rfl, h, hcached⟩
  | none =>
    have hparent : PosixDirectIOAdapter.ensureParent system target.resourcePath adapter.os =
          (.ok (), adapter.os) ∨
        PosixDirectIOAdapter.ensureParent system target.resourcePath adapter.os =
          system.mkdirParents adapter.os target.resourcePath := by
      unfold PosixDirectIOAdapter.ensureParent
      split
      · exact Or.inl rfl
      · exact Or.inr rfl
    obtain ⟨ready, fd, next, hready, hopened, hnext⟩ :=
      h.represents.openFile hreliable hpath hparent
    refine ⟨fd, ⟨adapter.fds.set target.resourcePath fd,
      adapter.fileIos.set target.resourcePath fd, next⟩, ?_, ⟨hnext, ?_⟩, ?_⟩
    · simp only [hready, hopened]
    · rw [h.fileIos]
    · rw [Dict.get?_set, if_pos rfl]

/-- An aligned buffer passes the address check. -/
theorem AlignedTransfer.assertAlignment {offset : ℕ} {buffer : DirectBuffer (List Byte)}
    (h : AlignedTransfer offset buffer) : assertAlignment buffer 4096 = none := by
  have haddress : buffer.address % (4096 : ℕ) = 0 := h.address
  rw [Adapters.assertAlignment, if_neg (not_not.mpr haddress)]

/-- A write moves its whole payload into the store. -/
theorem PosixRepresents.write (h : PosixRepresents semantics paths adapter store)
    (hreliable : semantics.Reliable paths) (hdistinct : Set.InjOn semantics.fileOf paths)
    {target : TargetDescriptor} (hpath : target.resourcePath ∈ paths) {offset : ℕ}
    {payload : DirectBuffer (List Byte)} (haligned : AlignedTransfer offset payload) :
    ∃ next, adapter.write system target offset payload = (.ok payload.view.length, next) ∧
      PosixRepresents semantics paths next (Function.update store target.resourcePath
        (writeAt (store target.resourcePath) offset payload.view)) := by
  obtain ⟨fd, opened, hfd, hopened, hcached⟩ := h.getOrOpenFd hreliable hpath
  obtain ⟨sought, hseek, hsought, hcursor⟩ := hopened.represents.lseek hreliable hcached offset
  obtain ⟨next, hwrite, hnext⟩ :=
    hsought.write hreliable hdistinct hpath hcursor payload.view
  refine ⟨{ opened with os := next }, ?_, ⟨hnext, hopened.fileIos⟩⟩
  simp only [PosixDirectIOAdapter.write, haligned.assertAlignment, hfd, hseek, hwrite]

/-- Either way of reading moves the store's bytes at the path. -/
theorem PosixRepresents.transferInto (h : PosixRepresents semantics paths adapter store)
    (hreliable : semantics.Reliable paths) {path : String} (hpath : path ∈ paths) {fd : ℕ}
    (hcached : adapter.fds.get? path = some fd) (offset size : ℕ) :
    ∃ next, adapter.transferInto system path fd offset size =
        (.ok (readAt (store path) offset size), next) ∧
      Represents semantics paths adapter.fds next store := by
  obtain ⟨sought, hseek, hsought, hcursor⟩ := h.represents.lseek hreliable hcached offset
  unfold PosixDirectIOAdapter.transferInto
  cases hreadv : system.readv with
  | some readv =>
    obtain ⟨next, hread, hnext⟩ :=
      hsought.read hpath (hreliable.readv readv hreadv) hcursor size
    refine ⟨next, ?_, hnext⟩
    simp only [hseek, hread]
  | none =>
    obtain ⟨next, hread, hnext⟩ := hsought.read hpath hreliable.readinto hcursor size
    refine ⟨next, ?_, hnext⟩
    rw [Prod.mk.injEq] at hread
    simp only [h.fileIos, hcached, hseek]
    cases hinto : system.readinto sought fd size with
    | mk answer after =>
      rw [hinto] at hread
      cases answer with
      | error e => cases hread.1
      | ok data =>
        obtain ⟨hdata, rfl⟩ := hread
        rw [Except.map, Except.ok.injEq] at hdata
        simp only [hdata]

/-- A read answers with the store's bytes and leaves the store. -/
theorem PosixRepresents.read (h : PosixRepresents semantics paths adapter store)
    (hreliable : semantics.Reliable paths) {target : TargetDescriptor}
    (hpath : target.resourcePath ∈ paths) {offset : ℕ} {buffer : DirectBuffer (List Byte)}
    (haligned : AlignedTransfer offset buffer) :
    ∃ next, adapter.read system target offset buffer =
        (.ok (readAt (store target.resourcePath) offset buffer.view.length).length,
          filled buffer.view (readAt (store target.resourcePath) offset buffer.view.length),
          next) ∧
      PosixRepresents semantics paths next store := by
  obtain ⟨fd, opened, hfd, hopened, hcached⟩ := h.getOrOpenFd hreliable hpath
  obtain ⟨next, htransfer, hnext⟩ :=
    hopened.transferInto hreliable hpath hcached offset buffer.view.length
  refine ⟨{ opened with os := next }, ?_, ⟨hnext, hopened.fileIos⟩⟩
  simp only [PosixDirectIOAdapter.read, haligned.assertAlignment, hfd, htransfer]

/-- A flush succeeds and leaves the store. -/
theorem PosixRepresents.flush (h : PosixRepresents semantics paths adapter store)
    (hreliable : semantics.Reliable paths) (target : TargetDescriptor) :
    ∃ next, adapter.flush system target = (.ok (), next) ∧
      PosixRepresents semantics paths next store := by
  simp only [PosixDirectIOAdapter.flush]
  cases hcached : adapter.fds.get? target.resourcePath with
  | none => exact ⟨adapter, rfl, h⟩
  | some fd =>
    obtain ⟨cursor, hopen⟩ := h.represents.cached _ fd hcached
    obtain ⟨hsync, hview⟩ := hreliable.fsync adapter.os fd _ cursor hopen
    cases hcall : system.fsync adapter.os fd with
    | mk answer next =>
      rw [hcall] at hsync hview
      obtain rfl : answer = .ok () := hsync
      refine ⟨{ adapter with os := next }, ?_, ⟨h.represents.of_view_eq hview, h.fileIos⟩⟩
      simp only [hcall]

/-- A close leaves the store behind an empty cache. -/
theorem PosixRepresents.close (h : PosixRepresents semantics paths adapter store)
    (hreliable : semantics.Reliable paths) :
    PosixRepresents semantics paths (adapter.close system) store where
  represents := by
    apply represents_empty
    intro path hpath
    rw [PosixDirectIOAdapter.close, content_closeAll hreliable]
    exact h.represents.content path hpath
  fileIos := rfl

/-- Every aligned call on the direct I/O adapter is a step of the store. -/
theorem PosixRepresents.step (h : PosixRepresents semantics paths adapter store)
    (hreliable : semantics.Reliable paths) (hdistinct : Set.InjOn semantics.fileOf paths)
    {call : StoreCall} (haligned : call.Aligned paths) :
    (posixStep system adapter call).1 = (referenceStep store call).1 ∧
      PosixRepresents semantics paths (posixStep system adapter call).2
        (referenceStep store call).2 := by
  cases call with
  | write target offset payload =>
    obtain ⟨next, hcall, hnext⟩ := h.write hreliable hdistinct haligned.1 haligned.2
    simp only [posixStep, hcall]
    exact ⟨rfl, hnext⟩
  | read target offset buffer =>
    obtain ⟨next, hcall, hnext⟩ := h.read hreliable haligned.1 haligned.2
    simp only [posixStep, hcall]
    exact ⟨rfl, hnext⟩
  | flush target =>
    obtain ⟨next, hcall, hnext⟩ := h.flush hreliable target
    simp only [posixStep, hcall]
    exact ⟨rfl, hnext⟩
  | close => exact ⟨rfl, h.close hreliable⟩

end Posix

section IoUring

variable {adapter : IoUringTargetAdapter ω}

/-- The state of an `io_uring` adapter without a ring represents a store. -/
structure FallbackRepresents (semantics : FileSemantics F system.toOperatingSystem)
    (paths : Set String) (adapter : IoUringTargetAdapter ω) (store : String → List Byte) :
    Prop where
  represents : Represents semantics paths adapter.fds adapter.os store
  ring : adapter.ring = none

/-- An aligned transfer passes every alignment check. -/
theorem AlignedTransfer.verifyAlignment {offset : ℕ} {buffer : DirectBuffer (List Byte)}
    (h : AlignedTransfer offset buffer) :
    IoUringTargetAdapter.verifyAlignment buffer offset = none := by
  have hsize : buffer.size % 4096 = 0 := by
    rw [h.size]
    exact_mod_cast h.length
  rw [IoUringTargetAdapter.verifyAlignment, if_neg (not_not.mpr h.address),
    if_neg (not_not.mpr hsize), if_neg (not_not.mpr h.offset)]

/-- Getting a descriptor succeeds and caches it. -/
theorem FallbackRepresents.getOrOpenFd (h : FallbackRepresents semantics paths adapter store)
    (hreliable : semantics.Reliable paths) {target : TargetDescriptor}
    (hpath : target.resourcePath ∈ paths) :
    ∃ fd next, adapter.getOrOpenFd system.toOperatingSystem target = (.ok fd, next) ∧
      FallbackRepresents semantics paths next store ∧
      next.fds.get? target.resourcePath = some fd := by
  simp only [IoUringTargetAdapter.getOrOpenFd]
  cases hcached : adapter.fds.get? target.resourcePath with
  | some fd => exact ⟨fd, adapter, rfl, h, hcached⟩
  | none =>
    have hparent : IoUringTargetAdapter.ensureParent system.toOperatingSystem target.resourcePath
          adapter.os = (.ok (), adapter.os) ∨
        IoUringTargetAdapter.ensureParent system.toOperatingSystem target.resourcePath adapter.os =
          system.mkdirParents adapter.os target.resourcePath := by
      unfold IoUringTargetAdapter.ensureParent
      split
      · exact Or.inl rfl
      · exact Or.inr rfl
    obtain ⟨ready, fd, next, hready, hopened, hnext⟩ :=
      h.represents.openFile hreliable hpath hparent
    refine ⟨fd, { adapter with os := next, fds := adapter.fds.set target.resourcePath fd }, ?_,
      ⟨hnext, h.ring⟩, ?_⟩
    · simp only [hready, hopened]
    · rw [Dict.get?_set, if_pos rfl]

/-- Before an aligned transfer, the adapter is initialized and a descriptor is cached. -/
theorem FallbackRepresents.prepareTransfer
    (h : FallbackRepresents semantics paths adapter store) (hreliable : semantics.Reliable paths)
    {target : TargetDescriptor} (hpath : target.resourcePath ∈ paths) {offset : ℕ}
    {buffer : DirectBuffer (List Byte)} (haligned : AlignedTransfer offset buffer)
    (initCode : ℤ) :
    ∃ fd next, adapter.prepareTransfer system.toOperatingSystem initCode target offset buffer =
        (.ok fd, next) ∧
      FallbackRepresents semantics paths next store ∧
      next.fds.get? target.resourcePath = some fd := by
  have hinit : ∃ ready, adapter.initializeAdapter system.toOperatingSystem initCode =
      (.ok (), ready) ∧ FallbackRepresents semantics paths ready store := by
    unfold IoUringTargetAdapter.initializeAdapter
    split
    · exact ⟨adapter, rfl, h⟩
    · rw [h.ring]
      exact ⟨{ adapter with initialized := true }, by rw [h.ring], h.represents, h.ring⟩
  obtain ⟨ready, hready, hinv⟩ := hinit
  obtain ⟨fd, next, hfd, hnext, hcached⟩ := hinv.getOrOpenFd hreliable hpath
  refine ⟨fd, next, ?_, hnext, hcached⟩
  simp only [IoUringTargetAdapter.prepareTransfer, hready, haligned.verifyAlignment, hfd]

/-- A fallback write moves its whole payload into the store. -/
theorem FallbackRepresents.write (h : FallbackRepresents semantics paths adapter store)
    (hreliable : semantics.Reliable paths) (hdistinct : Set.InjOn semantics.fileOf paths)
    {target : TargetDescriptor} (hpath : target.resourcePath ∈ paths) {offset : ℕ}
    {payload : DirectBuffer (List Byte)} (haligned : AlignedTransfer offset payload)
    (kernel : KernelAnswers) :
    ∃ next, adapter.write system.toOperatingSystem kernel target offset payload =
        (⟨.ok payload.view.length, none, payload.view⟩, next) ∧
      FallbackRepresents semantics paths next (Function.update store target.resourcePath
        (writeAt (store target.resourcePath) offset payload.view)) := by
  obtain ⟨fd, opened, hfd, hopened, hcached⟩ :=
    h.prepareTransfer hreliable hpath haligned kernel.initCode
  obtain ⟨sought, hseek, hsought, hcursor⟩ := hopened.represents.lseek hreliable hcached offset
  obtain ⟨next, hwrite, hnext⟩ :=
    hsought.write hreliable hdistinct hpath hcursor payload.view
  refine ⟨{ opened with os := next }, ?_, ⟨hnext, hopened.ring⟩⟩
  simp only [IoUringTargetAdapter.write, hfd, hopened.ring, IoUringTargetAdapter.fallbackWrite,
    hseek, hwrite]

/-- A fallback read answers with the store's bytes and leaves the store. -/
theorem FallbackRepresents.read (h : FallbackRepresents semantics paths adapter store)
    (hreliable : semantics.Reliable paths) {target : TargetDescriptor}
    (hpath : target.resourcePath ∈ paths) {offset : ℕ} {buffer : DirectBuffer (List Byte)}
    (haligned : AlignedTransfer offset buffer) (kernel : KernelAnswers) :
    ∃ next, adapter.read system.toOperatingSystem kernel target offset buffer =
        (⟨.ok (readAt (store target.resourcePath) offset buffer.view.length).length, none,
          filled buffer.view (readAt (store target.resourcePath) offset buffer.view.length)⟩,
          next) ∧
      FallbackRepresents semantics paths next store := by
  obtain ⟨fd, opened, hfd, hopened, hcached⟩ :=
    h.prepareTransfer hreliable hpath haligned kernel.initCode
  obtain ⟨sought, hseek, hsought, hcursor⟩ := hopened.represents.lseek hreliable hcached offset
  obtain ⟨next, hread, hnext⟩ :=
    hsought.read hpath hreliable.read hcursor buffer.view.length
  have hroom : overlay buffer.view
        (readAt (store target.resourcePath) offset buffer.view.length) =
      .ok (filled buffer.view (readAt (store target.resourcePath) offset buffer.view.length)) := by
    rw [overlay, if_pos (readAt_length_le _ _ _), filled]
  refine ⟨{ opened with os := next }, ?_, ⟨hnext, hopened.ring⟩⟩
  simp only [IoUringTargetAdapter.read, hfd, hopened.ring, IoUringTargetAdapter.fallbackRead,
    hseek, haligned.size, hread, hroom]

/-- A flush leaves the store. -/
theorem FallbackRepresents.flush (h : FallbackRepresents semantics paths adapter store)
    (hreliable : semantics.Reliable paths) (submitCode : ℤ) (target : TargetDescriptor) :
    FallbackRepresents semantics paths
      (adapter.flush system.toOperatingSystem submitCode target) store := by
  have hsame : (if adapter.initialized then
      { adapter with ring := adapter.ring.map fun ring => ring.submit submitCode }
    else adapter) = adapter := by
    split
    · rw [h.ring]
      cases adapter
      cases h.ring
      rfl
    · rfl
  simp only [IoUringTargetAdapter.flush, hsame]
  cases hcached : adapter.fds.get? target.resourcePath with
  | none => exact h
  | some fd =>
    obtain ⟨cursor, hopen⟩ := h.represents.cached _ fd hcached
    exact ⟨h.represents.of_view_eq (hreliable.fsync adapter.os fd _ cursor hopen).2, h.ring⟩

/-- A close leaves the store behind an empty cache. -/
theorem FallbackRepresents.close (h : FallbackRepresents semantics paths adapter store)
    (hreliable : semantics.Reliable paths) :
    FallbackRepresents semantics paths (adapter.close system.toOperatingSystem) store := by
  simp only [IoUringTargetAdapter.close, h.ring]
  refine ⟨represents_empty ?_, rfl⟩
  intro path hpath
  rw [content_closeAll hreliable]
  exact h.represents.content path hpath

/-- Every aligned call on the fallback is a step of the store. -/
theorem FallbackRepresents.step (h : FallbackRepresents semantics paths adapter store)
    (hreliable : semantics.Reliable paths) (hdistinct : Set.InjOn semantics.fileOf paths)
    {input : KernelAnswers × StoreCall} (haligned : input.2.Aligned paths) :
    (ioUringStep system.toOperatingSystem adapter input).1 = (referenceStep store input.2).1 ∧
      FallbackRepresents semantics paths
        (ioUringStep system.toOperatingSystem adapter input).2
        (referenceStep store input.2).2 := by
  obtain ⟨kernel, call⟩ := input
  cases call with
  | write target offset payload =>
    obtain ⟨next, hcall, hnext⟩ := h.write hreliable hdistinct haligned.1 haligned.2 kernel
    simp only [ioUringStep, hcall]
    exact ⟨rfl, hnext⟩
  | read target offset buffer =>
    obtain ⟨next, hcall, hnext⟩ := h.read hreliable haligned.1 haligned.2 kernel
    simp only [ioUringStep, hcall]
    exact ⟨rfl, hnext⟩
  | flush target => exact ⟨rfl, h.flush hreliable kernel.submitCode target⟩
  | close => exact ⟨rfl, h.close hreliable⟩

end IoUring

/-- The store that a file system holds at some paths. -/
def storeOf (semantics : FileSemantics F system.toOperatingSystem) (os : ω) :
    String → List Byte :=
  fun path => (semantics.view os).content (semantics.fileOf path)

/-- On a reliable file system, both adapters answer every sequence of aligned calls as the
store of the files at the start does, whatever the kernel would answer on a ring. -/
theorem adapters_refine_store (semantics : FileSemantics F system.toOperatingSystem)
    (hreliable : semantics.Reliable paths) (hdistinct : Set.InjOn semantics.fileOf paths) (os : ω)
    (calls : List StoreCall) (haligned : ∀ call ∈ calls, call.Aligned paths) :
    machineOutputs (posixStep system) (PosixDirectIOAdapter.init os) calls =
        machineOutputs referenceStep (storeOf semantics os) calls ∧
      ∀ (queueDepth : ℕ) (kernels : List KernelAnswers), kernels.length = calls.length →
        machineOutputs (ioUringStep system.toOperatingSystem)
            (IoUringTargetAdapter.init false queueDepth os) (kernels.zip calls) =
          machineOutputs referenceStep (storeOf semantics os) calls := by
  have hempty : Represents semantics paths Dict.empty os (storeOf semantics os) :=
    represents_empty fun _ _ => rfl
  constructor
  · have hsimulation : machineOutputs (posixStep system) (PosixDirectIOAdapter.init os) calls =
        machineOutputs referenceStep (storeOf semantics os) (calls.map id) :=
      machineOutputs_simulation id (PosixRepresents semantics paths) (StoreCall.Aligned paths)
        (fun _ _ _ h hcall => h.step hreliable hdistinct hcall) ⟨hempty, rfl⟩ haligned
    rw [hsimulation, List.map_id]
  · intro queueDepth kernels hlength
    have hinputs : (kernels.zip calls).map Prod.snd = calls :=
      List.map_snd_zip (Nat.le_of_eq hlength.symm)
    have hsimulation : machineOutputs (ioUringStep system.toOperatingSystem)
        (IoUringTargetAdapter.init false queueDepth os) (kernels.zip calls) =
          machineOutputs referenceStep (storeOf semantics os)
            ((kernels.zip calls).map Prod.snd) := by
      apply machineOutputs_simulation Prod.snd (FallbackRepresents semantics paths)
        (fun input => input.2.Aligned paths)
      · intro _ _ _ h hcall
        exact h.step hreliable hdistinct hcall
      · exact ⟨hempty, rfl⟩
      · intro input hinput
        exact haligned input.2 (List.of_mem_zip hinput).2
    rw [hsimulation, hinputs]

/-- A page of one byte value. -/
def pageBuffer (fill : Byte) : DirectBuffer (List Byte) :=
  ⟨4096, 4096, List.replicate 4096 fill⟩

/-- Transfers of a page at page offsets are aligned. -/
theorem pageBuffer_aligned (page : ℕ) (fill : Byte) :
    AlignedTransfer (page * 4096) (pageBuffer fill) where
  address := rfl
  length := by
    simp only [pageBuffer, List.length_replicate]
  offset := Nat.mul_mod_left page 4096
  nonempty := by
    simp only [pageBuffer, List.length_replicate]
    decide
  size := by
    simp only [pageBuffer, List.length_replicate]
    rfl

/-- Two targets written and read around a close. -/
def twoTargetCalls : List StoreCall :=
  [.write ⟨"file://a", "a"⟩ (0 * 4096) (pageBuffer 1),
    .write ⟨"file://b", "b"⟩ (2 * 4096) (pageBuffer 2),
    .read ⟨"file://a", "a"⟩ (0 * 4096) (pageBuffer 0), .flush ⟨"file://a", "a"⟩, .close,
    .read ⟨"file://b", "b"⟩ (1 * 4096) (pageBuffer 3)]

/-- On an empty disk they are answered as by an empty store. -/
theorem adapters_refine_store_two_targets :
    machineOutputs (posixStep (diskSystem fun _ length => length))
        (PosixDirectIOAdapter.init Disk.empty) twoTargetCalls =
      machineOutputs referenceStep (fun _ => []) twoTargetCalls :=
  (adapters_refine_store (diskSemantics fun _ length => length) diskSemantics_reliable
    Function.injective_id.injOn Disk.empty twoTargetCalls
    (by
      simp only [twoTargetCalls, List.forall_mem_cons, StoreCall.Aligned, Set.mem_univ, true_and,
        pageBuffer_aligned, List.not_mem_nil, false_imp_iff, implies_true, and_self])).1

end Steve.Adapters
