import Steve.Adapters.Disk
import Steve.Adapters.SystemTrace

/-!
# Which requests the adapters reject up front

The `io_uring` adapter checks a request's address, size and offset; the POSIX adapter
checks its address and leaves the rest to the kernel. Both checks come before any system
call, and neither adapter raises an alignment error of its own after one.
-/

namespace Steve.Adapters

open Steve.Library

/-- A request whose address, size and offset are all multiples of the page size. -/
structure PageAligned (call : AdapterCall) : Prop where
  address : (4096 : ℤ) ∣ call.buffer.address
  size : (4096 : ℤ) ∣ call.buffer.size
  offset : 4096 ∣ call.offset

/-- The `io_uring` check passes exactly the aligned requests. -/
theorem verifyAlignment_eq_none_iff (call : AdapterCall) :
    IoUringTargetAdapter.verifyAlignment call.buffer call.offset = none ↔ PageAligned call := by
  unfold IoUringTargetAdapter.verifyAlignment
  split
  · rename_i haddress
    exact iff_of_false (Option.some_ne_none _) fun h => haddress (Int.emod_eq_zero_of_dvd h.address)
  · rename_i haddress
    split
    · rename_i hsize
      exact iff_of_false (Option.some_ne_none _) fun h => hsize (Int.emod_eq_zero_of_dvd h.size)
    · rename_i hsize
      split
      · rename_i hoffset
        exact iff_of_false (Option.some_ne_none _) fun h => hoffset (Nat.mod_eq_zero_of_dvd h.offset)
      · rename_i hoffset
        exact iff_of_true rfl ⟨Int.dvd_of_emod_eq_zero (not_not.mp haddress),
          Int.dvd_of_emod_eq_zero (not_not.mp hsize), Nat.dvd_of_mod_eq_zero (not_not.mp hoffset)⟩

/-- What it raises otherwise is an alignment error. -/
theorem verifyAlignment_cls {buffer : DirectBuffer (List Byte)} {offset : ℕ} {e : PyException}
    (h : IoUringTargetAdapter.verifyAlignment buffer offset = some e) :
    e.cls = .steve .alignmentError := by
  unfold IoUringTargetAdapter.verifyAlignment at h
  split at h
  · cases h
    rfl
  · split at h
    · cases h
      rfl
    · split at h
      · cases h
        rfl
      · cases h

/-- The POSIX check passes exactly the buffers at an aligned address. -/
theorem assertAlignment_eq_none_iff (buffer : DirectBuffer (List Byte)) :
    assertAlignment buffer 4096 = none ↔ (4096 : ℤ) ∣ buffer.address := by
  unfold assertAlignment
  split
  · rename_i haddress
    exact iff_of_false (Option.some_ne_none _) fun h => haddress (Int.emod_eq_zero_of_dvd h)
  · rename_i haddress
    exact iff_of_true rfl (Int.dvd_of_emod_eq_zero (not_not.mp haddress))

/-- What it raises otherwise is an alignment error too. -/
theorem assertAlignment_cls {buffer : DirectBuffer (List Byte)} {alignment : ℕ} {e : PyException}
    (h : assertAlignment buffer alignment = some e) : e.cls = .steve .misalignedBufferError := by
  unfold assertAlignment at h
  split at h
  · cases h
    rfl
  · cases h

section IoUring

variable {ω : Type} (system : OperatingSystem ω)

/-- The adapter is initialized, or a call that initializes it succeeds. -/
def IoUringTargetAdapter.Initializes (adapter : IoUringTargetAdapter ω) (initCode : ℤ) : Prop :=
  adapter.initialized = true ∨ adapter.ring = none ∨ 0 ≤ initCode

/-- Initializing opens nothing. -/
theorem initializeAdapter_ok {adapter : IoUringTargetAdapter ω} {initCode : ℤ}
    (h : adapter.Initializes initCode) :
    ∃ ready : IoUringTargetAdapter ω, adapter.initializeAdapter system initCode = (.ok (), ready) ∧
      ready.initialized = true ∧ ready.os = adapter.os ∧ ready.fds = adapter.fds := by
  unfold IoUringTargetAdapter.initializeAdapter
  by_cases hinitialized : adapter.initialized = true
  · rw [if_pos hinitialized]
    exact ⟨adapter, rfl, hinitialized, rfl, rfl⟩
  · rw [if_neg hinitialized]
    cases hring : adapter.ring with
    | none => exact ⟨_, rfl, rfl, rfl, rfl⟩
    | some ring =>
      have hcode : ¬ initCode < 0 := by
        rcases h with hyes | hnone | hcode
        · exact absurd hyes hinitialized
        · rw [hring] at hnone
          cases hnone
        · omega
      simp only [if_neg hcode]
      exact ⟨_, rfl, rfl, rfl, rfl⟩

/-- A refused ring is an adapter error. -/
theorem initializeAdapter_error {adapter : IoUringTargetAdapter ω} {initCode : ℤ}
    (h : ¬ adapter.Initializes initCode) :
    ∃ e, adapter.initializeAdapter system initCode = (.error e, adapter) ∧
      e.cls = .steve .adapterError := by
  rw [IoUringTargetAdapter.Initializes, not_or, not_or] at h
  obtain ⟨hinitialized, hring, hcode⟩ := h
  obtain ⟨ring, hring⟩ := Option.ne_none_iff_exists'.mp hring
  simp only [IoUringTargetAdapter.initializeAdapter, if_neg hinitialized, hring,
    if_pos (Int.not_le.mp hcode)]
  exact ⟨_, rfl, rfl⟩

/-- Getting a descriptor never raises an alignment error. -/
theorem getOrOpenFd_error {adapter : IoUringTargetAdapter ω} {target : TargetDescriptor}
    {e : PyException} (h : (adapter.getOrOpenFd system target).1 = .error e) :
    ¬ e.IsA .alignmentError := by
  rw [PyException.isA_alignmentError_iff]
  simp only [IoUringTargetAdapter.getOrOpenFd] at h
  split at h
  · cases h
  · split at h
    · cases h
      simp [OsError.raised]
    · split at h
      · cases h
        simp [adapterError]
      · cases h

/-- A transfer on the ring raises before it waits, or answers as some completion. -/
theorem ringTransfer_report (strerror : ℤ → String) (direction : String) (kernel : KernelAnswers)
    (operation : RingOperation) (userData : ℕ) (view filled : List Byte) (ring : Ring) :
    (∃ e, (ringTransfer strerror direction kernel operation userData view filled ring).1 =
        ⟨.error e, none, view⟩ ∧ (e.cls = .steve .queueFullError ∨ e.cls = .steve .adapterError)) ∨
      ∃ completion, (ringTransfer strerror direction kernel operation userData view filled ring).1 =
        ⟨completionAnswer strerror direction completion, some completion, filled⟩ := by
  unfold ringTransfer
  by_cases hslot : kernel.slot = false ∧ kernel.retrySlot = false
  · simp only [if_pos hslot]
    exact Or.inl ⟨_, rfl, Or.inl rfl⟩
  · simp only [if_neg hslot]
    by_cases hcode : kernel.submitCode < 0
    · simp only [dif_pos hcode]
      exact Or.inl ⟨_, rfl, Or.inr rfl⟩
    · simp only [dif_neg hcode]
      generalize Ring.waitCqe _ _ = completion
      refine Or.inr ⟨completion, ?_⟩
      unfold completionAnswer
      split <;> rfl

/-- Neither does a transfer on the ring. -/
theorem ringTransfer_error {strerror : ℤ → String} {direction : String} {kernel : KernelAnswers}
    {operation : RingOperation} {userData : ℕ} {view filled : List Byte} {ring : Ring}
    {e : PyException}
    (h : (ringTransfer strerror direction kernel operation userData view filled ring).1.outcome =
      .error e) : ¬ e.IsA .alignmentError := by
  rw [PyException.isA_alignmentError_iff]
  rcases ringTransfer_report strerror direction kernel operation userData view filled ring with
    hraised | hanswered
  · obtain ⟨raised, hreport, hcls⟩ := hraised
    rw [hreport] at h
    cases h
    rcases hcls with hfull | hadapter
    · simp [hfull]
    · simp [hadapter]
  · obtain ⟨completion, hreport⟩ := hanswered
    rw [hreport] at h
    unfold completionAnswer at h
    split at h
    · cases h
      simp [completionError]
    · cases h

/-- The part of a call past its checks where there is no ring. -/
def AdapterCall.fallback (adapter : IoUringTargetAdapter ω) (fd : ℕ) (call : AdapterCall) :
    CallReport × IoUringTargetAdapter ω :=
  match call.transfer with
  | .write => adapter.fallbackWrite system fd call.offset call.buffer.view
  | .read => adapter.fallbackRead system fd call.offset call.buffer

/-- A call that gets a descriptor and has no ring falls back. -/
theorem run_of_prepared_fallback {adapter next : IoUringTargetAdapter ω} {call : AdapterCall}
    {fd : ℕ} (h : call.prepared system adapter = (.ok fd, next)) (hring : next.ring = none) :
    call.run system adapter = call.fallback system next fd := by
  unfold AdapterCall.prepared at h
  cases htransfer : call.transfer with
  | write =>
    simp only [AdapterCall.run, AdapterCall.fallback, htransfer, IoUringTargetAdapter.write, h,
      hring]
  | read =>
    simp only [AdapterCall.run, AdapterCall.fallback, htransfer, IoUringTargetAdapter.read, h,
      hring]

/-- Falling back raises no alignment error. -/
theorem fallback_error {adapter : IoUringTargetAdapter ω} {fd : ℕ} {call : AdapterCall}
    {e : PyException} (h : (call.fallback system adapter fd).1.outcome = .error e) :
    ¬ e.IsA .alignmentError := by
  rw [PyException.isA_alignmentError_iff]
  unfold AdapterCall.fallback at h
  split at h
  · simp only [IoUringTargetAdapter.fallbackWrite] at h
    split at h
    · cases h
      simp [OsError.raised]
    · split at h
      · cases h
        simp [OsError.raised]
      · cases h
  · simp only [IoUringTargetAdapter.fallbackRead] at h
    split at h
    · cases h
      simp [OsError.raised]
    · split at h
      · cases h
        simp [OsError.raised]
      · split at h
        · rename_i hoverlay
          cases h
          unfold overlay at hoverlay
          split at hoverlay
          · cases hoverlay
          · cases hoverlay
            simp
        · cases h

/-- An aligned request is never answered with an alignment error. -/
theorem run_aligned_error {adapter : IoUringTargetAdapter ω} {call : AdapterCall}
    (halign : PageAligned call) {e : PyException}
    (h : (call.run system adapter).1.outcome = .error e) : ¬ e.IsA .alignmentError := by
  have hverify := (verifyAlignment_eq_none_iff call).mpr halign
  by_cases hinit : adapter.Initializes call.kernel.initCode
  · obtain ⟨ready, hready, -, -, -⟩ := initializeAdapter_ok system hinit
    have hprepared : call.prepared system adapter = ready.getOrOpenFd system call.target := by
      simp only [AdapterCall.prepared, IoUringTargetAdapter.prepareTransfer, hready, hverify]
    cases hopened : ready.getOrOpenFd system call.target with
    | mk answer next =>
      rw [hopened] at hprepared
      cases answer with
      | error raised =>
        rw [run_of_prepared_error system hprepared] at h
        cases h
        exact getOrOpenFd_error system (by rw [hopened])
      | ok fd =>
        cases hring : next.ring with
        | none =>
          rw [run_of_prepared_fallback system hprepared hring] at h
          exact fallback_error system h
        | some ring =>
          rw [run_of_prepared_ok system hprepared hring] at h
          exact ringTransfer_error h
  · obtain ⟨raised, hraised, hcls⟩ := initializeAdapter_error system hinit
    have hprepared : call.prepared system adapter = (.error raised, adapter) := by
      simp only [AdapterCall.prepared, IoUringTargetAdapter.prepareTransfer, hraised]
    rw [run_of_prepared_error system hprepared] at h
    cases h
    rw [PyException.isA_alignmentError_iff]
    simp [hcls]

/-- Any other request is, once the adapter is initialized, before anything is opened. -/
theorem run_misaligned {adapter : IoUringTargetAdapter ω} {call : AdapterCall}
    (hinit : adapter.Initializes call.kernel.initCode) (halign : ¬ PageAligned call) :
    ∃ e next, call.run system adapter = (⟨.error e, none, call.buffer.view⟩, next) ∧
      e.IsA .alignmentError ∧ next.os = adapter.os ∧ next.fds = adapter.fds := by
  obtain ⟨ready, hready, -, hos, hfds⟩ := initializeAdapter_ok system hinit
  have hverify := mt (verifyAlignment_eq_none_iff call).mp halign
  obtain ⟨e, he⟩ := Option.ne_none_iff_exists'.mp hverify
  have hprepared : call.prepared system adapter = (.error e, ready) := by
    simp only [AdapterCall.prepared, IoUringTargetAdapter.prepareTransfer, hready, he]
  exact ⟨e, ready, run_of_prepared_error system hprepared, Or.inl (verifyAlignment_cls he), hos,
    hfds⟩

/-- A request to an adapter whose ring is refused raises no alignment error. -/
theorem run_uninitialized {adapter : IoUringTargetAdapter ω} {call : AdapterCall}
    (hinit : ¬ adapter.Initializes call.kernel.initCode) :
    ∃ e, call.run system adapter = (⟨.error e, none, call.buffer.view⟩, adapter) ∧
      ¬ e.IsA .alignmentError := by
  obtain ⟨e, he, hcls⟩ := initializeAdapter_error system hinit
  have hprepared : call.prepared system adapter = (.error e, adapter) := by
    simp only [AdapterCall.prepared, IoUringTargetAdapter.prepareTransfer, he]
  refine ⟨e, run_of_prepared_error system hprepared, ?_⟩
  rw [PyException.isA_alignmentError_iff]
  simp [hcls]

end IoUring

/-- A transfer is rejected up front: it raises an alignment error without a system call. -/
def RejectedUpFront (outcome : Except PyException ℕ) (before after : List SystemEvent) : Prop :=
  ∃ e, outcome = .error e ∧ e.IsA .alignmentError ∧ after = before

section Posix

variable {ω : Type} (system : PosixSystem ω)

/-- A transfer at an aligned address is not rejected up front. -/
theorem runPosix_aligned (adapter : PosixDirectIOAdapter (ω × List SystemEvent))
    {call : AdapterCall} (haddress : (4096 : ℤ) ∣ call.buffer.address) :
    ¬ RejectedUpFront (call.runPosix (traced system) adapter).1 adapter.os.2
      (call.runPosix (traced system) adapter).2.os.2 := by
  rintro ⟨e, hraised, halignment, hunlogged⟩
  obtain ⟨events, hlog, hsurfaces⟩ := PosixDirectIOAdapter.runPosix_surfaces system adapter
    ((assertAlignment_eq_none_iff call.buffer).mpr haddress)
  rw [hunlogged, List.self_eq_append_right] at hlog
  rw [hraised] at hsurfaces
  cases hsurfaces with
  | clean _ hplain => exact hplain e rfl halignment
  | failed _ _ => exact List.append_ne_nil_of_right_ne_nil _ (List.cons_ne_nil _ _) hlog

/-- Any other transfer is. -/
theorem runPosix_misaligned (adapter : PosixDirectIOAdapter (ω × List SystemEvent))
    {call : AdapterCall} (haddress : ¬ (4096 : ℤ) ∣ call.buffer.address) :
    RejectedUpFront (call.runPosix (traced system) adapter).1 adapter.os.2
      (call.runPosix (traced system) adapter).2.os.2 := by
  obtain ⟨e, he⟩ := Option.ne_none_iff_exists'.mp
    (mt (assertAlignment_eq_none_iff call.buffer).mp haddress)
  have hkind : e.IsA .alignmentError := Or.inr ⟨_, assertAlignment_cls he, rfl⟩
  unfold AdapterCall.runPosix
  cases call.transfer with
  | write =>
    simp only [PosixDirectIOAdapter.write, he]
    exact ⟨e, rfl, hkind, rfl⟩
  | read =>
    simp only [PosixDirectIOAdapter.read, he]
    exact ⟨e, rfl, hkind, rfl⟩

end Posix

section Agreement

variable {ω : Type} (system : PosixSystem ω)

/-- The `io_uring` adapter rejects a request up front exactly when it is misaligned and the
adapter is initialized for it. -/
theorem run_rejected_iff (adapter : IoUringTargetAdapter (ω × List SystemEvent))
    (call : AdapterCall) :
    RejectedUpFront (call.run (tracedOs system.toOperatingSystem) adapter).1.outcome adapter.os.2
        (call.run (tracedOs system.toOperatingSystem) adapter).2.os.2 ↔
      ¬ PageAligned call ∧ adapter.Initializes call.kernel.initCode := by
  constructor
  · rintro ⟨e, hraised, halignment, -⟩
    constructor
    · intro halign
      exact run_aligned_error _ halign hraised halignment
    · by_contra hinit
      obtain ⟨other, hrun, hplain⟩ :=
        run_uninitialized (tracedOs system.toOperatingSystem) hinit
      rw [hrun] at hraised
      cases hraised
      exact hplain halignment
  · rintro ⟨halign, hinit⟩
    obtain ⟨e, next, hrun, hkind, hos, -⟩ :=
      run_misaligned (tracedOs system.toOperatingSystem) hinit halign
    rw [hrun]
    exact ⟨e, rfl, hkind, by rw [hos]⟩

/-- Both adapters reject a request up front exactly when it is misaligned. -/
structure AdmitAlike (posix : PosixDirectIOAdapter (ω × List SystemEvent))
    (ioUring : IoUringTargetAdapter (ω × List SystemEvent)) (call : AdapterCall) : Prop where
  posix : RejectedUpFront (call.runPosix (traced system) posix).1 posix.os.2
    (call.runPosix (traced system) posix).2.os.2 ↔ ¬ PageAligned call
  ioUring : RejectedUpFront (call.run (tracedOs system.toOperatingSystem) ioUring).1.outcome
    ioUring.os.2 (call.run (tracedOs system.toOperatingSystem) ioUring).2.os.2 ↔
      ¬ PageAligned call

/-- The two adapters admit alike exactly the requests that are aligned, and those at a
misaligned address that find the `io_uring` adapter initialized. -/
theorem admitAlike_iff (posix : PosixDirectIOAdapter (ω × List SystemEvent))
    (ioUring : IoUringTargetAdapter (ω × List SystemEvent)) (call : AdapterCall) :
    AdmitAlike system posix ioUring call ↔
      PageAligned call ∨ ¬ (4096 : ℤ) ∣ call.buffer.address ∧
        ioUring.Initializes call.kernel.initCode := by
  constructor
  · intro h
    by_cases halign : PageAligned call
    · exact Or.inl halign
    · refine Or.inr ⟨?_, ((run_rejected_iff system ioUring call).mp (h.ioUring.mpr halign)).2⟩
      intro haddress
      exact runPosix_aligned system posix haddress (h.posix.mpr halign)
  · rintro (halign | ⟨haddress, hinit⟩)
    · refine ⟨?_, ?_⟩
      · exact iff_of_false (runPosix_aligned system posix halign.address) (not_not.mpr halign)
      · rw [run_rejected_iff]
        exact and_iff_left_of_imp fun hnot => absurd halign hnot
    · have hnot : ¬ PageAligned call := fun halign => haddress halign.address
      refine ⟨iff_of_true (runPosix_misaligned system posix haddress) hnot, ?_⟩
      rw [run_rejected_iff]
      exact and_iff_left hinit

end Agreement

/-- A write of half a page of zeros. -/
def halfPageWrite : AdapterCall where
  transfer := .write
  kernel := ⟨0, true, 0, true, 1, 2048, id⟩
  target := ⟨"file:///tmp/steve", "/tmp/steve_core_0.dat"⟩
  offset := 0
  buffer := ⟨0x7f0000000000, 2048, List.replicate 2048 0#8⟩

/-- At an aligned address it is rejected by one adapter and sent to the kernel by the other. -/
theorem admitAlike_half_page :
    ¬ AdmitAlike (diskSystem fun _ length => length)
      (PosixDirectIOAdapter.init (Disk.empty, []))
      (IoUringTargetAdapter.init true 1024 (Disk.empty, [])) halfPageWrite := by
  intro h
  have hmisaligned : ¬ PageAligned halfPageWrite := by
    intro halign
    exact absurd halign.size (by decide)
  have haddress : (4096 : ℤ) ∣ halfPageWrite.buffer.address := by decide
  exact runPosix_aligned _ _ haddress (h.posix.mpr hmisaligned)

end Steve.Adapters
