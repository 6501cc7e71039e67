import Steve.Adapters.AlignmentAdmission

/-!
# Which exception an operating-system failure becomes

An aligned transfer creates a parent directory, opens, seeks, and transfers, or waits for a
completion. The POSIX adapter translates every failed system call but the first by its error
number. The `io_uring` adapter has one class for a failed opening and one for a negative
completion, and lets the other failures through as they are.
-/

namespace Steve.Adapters

open Steve.Library

section Surfacing

variable {ω : Type} (system : OperatingSystem ω)

namespace IoUringTargetAdapter

/-- Getting a descriptor surfaces. -/
theorem getOrOpenFd_surfaces (adapter : IoUringTargetAdapter (ω × List SystemEvent))
    (target : TargetDescriptor) :
    ∃ events, (adapter.getOrOpenFd (tracedOs system) target).2.os.2 = adapter.os.2 ++ events ∧
      Surfaces ioUringClass events (adapter.getOrOpenFd (tracedOs system) target).1 := by
  simp only [getOrOpenFd]
  cases adapter.fds.get? target.resourcePath with
  | some fd => exact ⟨[], (List.append_nil _).symm, .ok (List.forall_mem_nil _) fd⟩
  | none =>
    rcases ensureParent_logged system target.resourcePath adapter.os with hparent | hparent
    · obtain ⟨next, events, hparent, hlog, hclean⟩ := hparent
      rcases openFile_logged system target.resourcePath next with hopened | hopened
      · obtain ⟨failure, last, hopen, hlast⟩ := hopened
        simp only [hparent, hopen]
        refine ⟨events ++ [⟨.openFile target.resourcePath none, some failure⟩], ?_, ?_⟩
        · rw [hlast, hlog, List.append_assoc]
        · exact .after (.failedAlone rfl) hclean
      · obtain ⟨fd, last, hopen, hlast⟩ := hopened
        simp only [hparent, hopen]
        refine ⟨events ++ [⟨.openFile target.resourcePath (some fd), none⟩], ?_, ?_⟩
        · rw [hlast, hlog, List.append_assoc]
        · exact .after (.ok (clean_singleton _) fd) hclean
    · obtain ⟨next, failure, hparent, hlog⟩ := hparent
      simp only [hparent]
      exact ⟨_, hlog, .failedAlone rfl⟩

/-- The fallback of a write seeks and writes. -/
theorem fallbackWrite_eq {σ : Type} (system : OperatingSystem σ)
    (adapter : IoUringTargetAdapter σ) (fd offset : ℕ) (view : List Byte) :
    adapter.fallbackWrite system fd offset view =
      let moved := seekThen OsError.raised (system.lseek adapter.os fd offset)
        fun os => system.write os fd view
      (⟨moved.1, none, view⟩, { adapter with os := moved.2 }) := by
  simp only [fallbackWrite, seekThen]
  cases system.lseek adapter.os fd offset with
  | mk answer sought =>
    cases answer with
    | error failure => rfl
    | ok _ =>
      simp only
      cases system.write sought fd view with
      | mk answer written => cases answer <;> rfl

/-- The fallback of a read seeks and reads, and copies what it read. -/
theorem fallbackRead_eq {σ : Type} (system : OperatingSystem σ)
    (adapter : IoUringTargetAdapter σ) (fd offset : ℕ) (buffer : DirectBuffer (List Byte)) :
    adapter.fallbackRead system fd offset buffer =
      let moved := seekThen OsError.raised (system.lseek adapter.os fd offset)
        fun os => system.read os fd buffer.size
      let copied := moved.1.bind (overlay buffer.view)
      (⟨copied.bind fun _ => moved.1.map List.length, none,
        copied.toOption.getD buffer.view⟩, { adapter with os := moved.2 }) := by
  simp only [fallbackRead, seekThen]
  cases system.lseek adapter.os fd offset with
  | mk answer sought =>
    cases answer with
    | error failure => rfl
    | ok _ =>
      simp only
      cases system.read sought fd buffer.size with
      | mk answer moved =>
        cases answer with
        | error failure => rfl
        | ok data =>
          simp only [Except.bind]
          cases overlay buffer.view data <;> rfl

/-- Falling back surfaces. -/
theorem fallback_surfaces (adapter : IoUringTargetAdapter (ω × List SystemEvent)) (fd : ℕ)
    (call : AdapterCall) :
    ∃ events, (call.fallback (tracedOs system) adapter fd).2.os.2 = adapter.os.2 ++ events ∧
      Surfaces ioUringClass events (call.fallback (tracedOs system) adapter fd).1.outcome := by
  cases htransfer : call.transfer with
  | write =>
    simp only [AdapterCall.fallback, htransfer, fallbackWrite_eq]
    exact seekThen_surfaces ioUringClass _ fd (.write fd) adapter.os
      (fun os => system.lseek os fd call.offset) (fun os => system.write os fd call.buffer.view)
      (fun _ => rfl) (fun _ => rfl)
  | read =>
    have hplain := @fallback_error _ (tracedOs system) adapter fd call
    simp only [AdapterCall.fallback, htransfer, fallbackRead_eq] at hplain ⊢
    obtain ⟨events, hlog, hsurfaces⟩ := seekThen_surfaces ioUringClass OsError.raised fd
      (.read fd) adapter.os (fun os => system.lseek os fd call.offset)
      (fun os => system.read os fd call.buffer.size) (fun _ => rfl) (fun _ => rfl)
    refine ⟨events, hlog, ?_⟩
    cases hmoved : seekThen OsError.raised
        ((tracedOs system).lseek adapter.os fd call.offset)
        (fun os => (tracedOs system).read os fd call.buffer.size) with
    | mk answer os =>
      change Surfaces ioUringClass events (seekThen OsError.raised
        ((tracedOs system).lseek adapter.os fd call.offset)
        (fun os => (tracedOs system).read os fd call.buffer.size)).1 at hsurfaces
      rw [hmoved] at hsurfaces hplain
      cases answer with
      | error e => exact hsurfaces.raised
      | ok data => exact .clean hsurfaces.clean_of_ok fun e he => hplain he

/-- An aligned transfer surfaces. -/
theorem run_surfaces (adapter : IoUringTargetAdapter (ω × List SystemEvent)) {call : AdapterCall}
    (halign : PageAligned call) :
    ∃ events, (call.run (tracedOs system) adapter).2.os.2 = adapter.os.2 ++ events ∧
      Surfaces ioUringClass events (call.run (tracedOs system) adapter).1.outcome := by
  by_cases hinit : adapter.Initializes call.kernel.initCode
  · obtain ⟨ready, hready, -, hos, -⟩ := initializeAdapter_ok (tracedOs system) hinit
    obtain ⟨events, hlog, hopened⟩ := getOrOpenFd_surfaces system ready call.target
    have hprepared : call.prepared (tracedOs system) adapter =
        ready.getOrOpenFd (tracedOs system) call.target := by
      simp only [AdapterCall.prepared, prepareTransfer, hready,
        (verifyAlignment_eq_none_iff call).mpr halign]
    rw [hos] at hlog
    cases hopen : ready.getOrOpenFd (tracedOs system) call.target with
    | mk answer next =>
      rw [hopen] at hprepared hlog hopened
      cases answer with
      | error e =>
        rw [run_of_prepared_error _ hprepared]
        exact ⟨events, hlog, hopened.raised⟩
      | ok fd =>
        cases hring : next.ring with
        | none =>
          rw [run_of_prepared_fallback _ hprepared hring]
          obtain ⟨moved, hmoved, hsurfaces⟩ := fallback_surfaces system next fd call
          refine ⟨events ++ moved, ?_, hsurfaces.after hopened.clean_of_ok⟩
          rw [← List.append_assoc, ← hlog]
          exact hmoved
        | some ring =>
          rw [run_of_prepared_ok _ hprepared hring]
          exact ⟨events, hlog, .clean hopened.clean_of_ok fun _ herror => ringTransfer_error herror⟩
  · obtain ⟨e, hrun, hplain⟩ := run_uninitialized (tracedOs system) hinit
    rw [hrun]
    refine ⟨[], (List.append_nil _).symm, .clean (List.forall_mem_nil _) fun raised hraised => ?_⟩
    cases hraised
    exact hplain

/-- A call that takes a completion answers as it. -/
theorem run_answered (adapter : IoUringTargetAdapter ω) {call : AdapterCall}
    {completion : RingRequest} (h : (call.run system adapter).1.answered = some completion) :
    (call.run system adapter).1.outcome =
      completionAnswer system.strerror call.transfer.direction completion := by
  cases hprepared : call.prepared system adapter with
  | mk answer next =>
    cases answer with
    | error e =>
      rw [run_of_prepared_error _ hprepared] at h
      cases h
    | ok fd =>
      cases hring : next.ring with
      | some ring =>
        rw [run_of_prepared_ok _ hprepared hring] at h ⊢
        rcases ringTransfer_report system.strerror call.transfer.direction call.kernel
          (call.operation fd) call.userData call.buffer.view call.filled ring with
          hraised | hanswered
        · obtain ⟨e, hreport, -⟩ := hraised
          rw [hreport] at h
          cases h
        · obtain ⟨taken, hreport⟩ := hanswered
          rw [hreport] at h ⊢
          cases h
          rfl
      | none =>
        rw [run_of_prepared_fallback _ hprepared hring] at h
        unfold AdapterCall.fallback at h
        split at h
        · rw [fallbackWrite_eq] at h
          cases h
        · rw [fallbackRead_eq] at h
          cases h

end IoUringTargetAdapter

end Surfacing

/-- The steps of an aligned transfer that the operating system can fail. -/
inductive TransferStep
  | creatingParent
  | opening
  | seeking
  | transferring
  | completing
  deriving DecidableEq, Repr

/-- The step a system call belongs to. -/
def SystemCall.step : SystemCall → Option TransferStep
  | .mkdirParents _ => some .creatingParent
  | .openFile _ _ => some .opening
  | .lseek _ => some .seeking
  | .write _ => some .transferring
  | .read _ => some .transferring
  | .fsync _ => none
  | .closeFile _ => none

/-- A transfer fails at a step with an error number: a system call of that step is logged with
that failure, or the completion it takes is the negated number. -/
def FailsAt (before after : List SystemEvent) (answered : Option RingRequest) :
    TransferStep → ℤ → Prop
  | .completing, errno => ∃ completion, answered = some completion ∧
      completion.result = -errno ∧ 0 < errno
  | step, errno => ∃ events, after = before ++ events ∧ ∃ call failure,
      ⟨call, some failure⟩ ∈ events ∧ call.step = some step ∧ failure.errno = errno

/-- The exception of a failed transfer is the one its error number stands for. -/
def Translated (outcome : Except PyException ℕ) (errno : ℤ) : Prop :=
  ∃ e, outcome = .error e ∧ e.cls = .steve (errnoClass errno)

/-- A part that logs a failure raises its exception. -/
theorem Surfaces.failure {translate : SystemCall → OsError → ExceptionClass} {α : Type}
    {events : List SystemEvent} {answer : Except PyException α}
    (h : Surfaces translate events answer) {call : SystemCall} {failure : OsError}
    (hmem : ⟨call, some failure⟩ ∈ events) :
    ∃ e, answer = .error e ∧ e.cls = translate call failure := by
  cases h with
  | clean hclean _ => cases hclean _ hmem
  | failed hclean hraised =>
    rcases List.mem_append.mp hmem with hbefore | hlast
    · cases hclean _ hbefore
    · cases List.mem_singleton.mp hlast
      exact ⟨_, rfl, hraised⟩

/-- A transfer that fails at a system call raises the exception of a failure of that step with
that number. -/
theorem FailsAt.raises {before after events : List SystemEvent} {answered : Option RingRequest}
    {step : TransferStep} {errno : ℤ} (h : FailsAt before after answered step errno)
    (hstep : step ≠ .completing) (hlog : after = before ++ events)
    {translate : SystemCall → OsError → ExceptionClass} {outcome : Except PyException ℕ}
    (hsurfaces : Surfaces translate events outcome) :
    ∃ e call failure, outcome = .error e ∧ e.cls = translate call failure ∧
      call.step = some step ∧ failure.errno = errno := by
  have hevents : ∃ events, after = before ++ events ∧ ∃ call failure,
      ⟨call, some failure⟩ ∈ events ∧ call.step = some step ∧ failure.errno = errno := by
    cases step with
    | completing => exact absurd rfl hstep
    | creatingParent | opening | seeking | transferring => exact h
  obtain ⟨others, hothers, call, failure, hmem, hcall, herrno⟩ := hevents
  rw [hlog, List.append_cancel_left_eq] at hothers
  obtain ⟨e, houtcome, hcls⟩ := hsurfaces.failure (hothers ▸ hmem)
  exact ⟨e, call, failure, houtcome, hcls, hcall, herrno⟩

/-- Both adapters, on any operating system and from any state, translate a failure of an
aligned transfer at a step with an error number. -/
structure UniformlyTranslated (step : TransferStep) (errno : ℤ) : Prop where
  posix : ∀ {ω : Type} (system : PosixSystem ω)
    (adapter : PosixDirectIOAdapter (ω × List SystemEvent)) (call : AdapterCall),
    PageAligned call →
      FailsAt adapter.os.2 (call.runPosix (traced system) adapter).2.os.2 none step errno →
        Translated (call.runPosix (traced system) adapter).1 errno
  ioUring : ∀ {ω : Type} (system : OperatingSystem ω)
    (adapter : IoUringTargetAdapter (ω × List SystemEvent)) (call : AdapterCall),
    PageAligned call →
      FailsAt adapter.os.2 (call.run (tracedOs system) adapter).2.os.2
          (call.run (tracedOs system) adapter).1.answered step errno →
        Translated (call.run (tracedOs system) adapter).1.outcome errno

/-- The answer of a system call that fails if it belongs to the faulty step. -/
def faultyAnswer {α : Type} (fault step : TransferStep) (errno : ℤ) (value : α) :
    Except OsError α × Unit :=
  (if fault = step then .error ⟨errno, "fault"⟩ else .ok value, ())

/-- An operating system that fails every system call of one step with one error number. -/
def faultySystem (fault : TransferStep) (errno : ℤ) : PosixSystem Unit where
  parentExists := fun _ _ => false
  mkdirParents := fun _ _ => faultyAnswer fault .creatingParent errno ()
  openFile := fun _ _ => faultyAnswer fault .opening errno 3
  lseek := fun _ _ _ => faultyAnswer fault .seeking errno ()
  write := fun _ _ bytes => faultyAnswer fault .transferring errno bytes.length
  read := fun _ _ _ => faultyAnswer fault .transferring errno []
  fsync := fun _ _ => (.ok (), ())
  closeFile := fun _ _ => (.ok (), ())
  strerror := fun _ => "fault"
  readv := some fun _ _ _ => faultyAnswer fault .transferring errno []
  readinto := fun _ _ _ => faultyAnswer fault .transferring errno none

/-- A write of a page is aligned. -/
theorem pageWrite_aligned (result : ℤ) : PageAligned (pageWrite result) :=
  ⟨Int.dvd_refl 4096, Int.dvd_refl 4096, Nat.dvd_zero 4096⟩

/-- The write that meets the fault, on a new adapter. -/
def faultyRun (fault : TransferStep) (errno : ℤ) :
    CallReport × IoUringTargetAdapter (Unit × List SystemEvent) :=
  (pageWrite (-errno)).run (tracedOs (faultySystem fault errno).toOperatingSystem)
    (IoUringTargetAdapter.init (decide (fault = .completing)) 1024 ((), []))

/-- It fails at its step. -/
theorem faultyRun_fails (fault : TransferStep) (errno : ℤ)
    (herrno : fault = .completing → 0 < errno) :
    FailsAt [] (faultyRun fault errno).2.os.2 (faultyRun fault errno).1.answered fault errno := by
  cases fault with
  | creatingParent =>
    exact ⟨[⟨.mkdirParents "mock_iouring.dat", some ⟨errno, "fault"⟩⟩], rfl, _, _,
      List.mem_cons_self, rfl, rfl⟩
  | opening =>
    exact ⟨[⟨.mkdirParents "mock_iouring.dat", none⟩,
      ⟨.openFile "mock_iouring.dat" none, some ⟨errno, "fault"⟩⟩], rfl, _, _,
      List.mem_cons_of_mem _ List.mem_cons_self, rfl, rfl⟩
  | seeking =>
    exact ⟨[⟨.mkdirParents "mock_iouring.dat", none⟩, ⟨.openFile "mock_iouring.dat" (some 3), none⟩,
      ⟨.lseek 3, some ⟨errno, "fault"⟩⟩], rfl, _, _,
      List.mem_cons_of_mem _ (List.mem_cons_of_mem _ List.mem_cons_self), rfl, rfl⟩
  | transferring =>
    exact ⟨[⟨.mkdirParents "mock_iouring.dat", none⟩, ⟨.openFile "mock_iouring.dat" (some 3), none⟩,
      ⟨.lseek 3, none⟩, ⟨.write 3, some ⟨errno, "fault"⟩⟩], rfl, _, _,
      List.mem_cons_of_mem _ (List.mem_cons_of_mem _ (List.mem_cons_of_mem _ List.mem_cons_self)),
      rfl, rfl⟩
  | completing =>
    have hquiescent : Ring.empty.Quiescent := ⟨rfl, rfl⟩
    have hnext : ((pageWrite (-errno)).prepared
        (tracedOs (faultySystem .completing errno).toOperatingSystem)
        (IoUringTargetAdapter.init true 1024 ((), []))).2.ring = some Ring.empty := rfl
    have hopened : ((pageWrite (-errno)).prepared
        (tracedOs (faultySystem .completing errno).toOperatingSystem)
        (IoUringTargetAdapter.init true 1024 ((), []))).1 = .ok 3 := rfl
    have hrun := run_of_prepared_ok _ (Prod.ext hopened rfl) hnext
    have hslot : ¬ ((pageWrite (-errno)).kernel.slot = false ∧
        (pageWrite (-errno)).kernel.retrySlot = false) := fun h => Bool.noConfusion h.1
    have hcode : ¬ (pageWrite (-errno)).kernel.submitCode < 0 := Int.not_lt.mpr Int.one_nonneg
    rw [ringTransfer_submitted _ _ _ _ _ _ _ hquiescent hslot hcode] at hrun
    refine ⟨⟨0, (pageWrite (-errno)).operation 3, 1, -errno⟩, ?_, rfl, herrno rfl⟩
    exact congrArg (fun ran => ran.1.answered) hrun

/-- The error numbers whose class is not that of a hardware fault. -/
def TranslatedOtherwise (errno : ℤ) : Prop :=
  errno = 1 ∨ errno = 2 ∨ errno = 6 ∨ errno = 13 ∨ errno = 19 ∨ errno = 22 ∨ errno = 28 ∨
    errno = 110 ∨ errno = 111 ∨ errno = 113

/-- Every other error number stands for a hardware fault. -/
theorem errnoClass_hardware_iff (errno : ℤ) :
    errnoClass errno = .hardwareIoError ↔ ¬ TranslatedOtherwise errno := by
  unfold errnoClass TranslatedOtherwise
  split_ifs <;> simp <;> omega

/-- A permission failure is the one that stands for an adapter error. -/
theorem errnoClass_adapter_iff (errno : ℤ) :
    errnoClass errno = .adapterError ↔ errno = 1 ∨ errno = 13 := by
  unfold errnoClass
  split_ifs <;> simp <;> omega

/-- A completion of a negated error number is raised as a hardware fault. -/
theorem completion_raises {ω : Type} (system : OperatingSystem ω)
    (adapter : IoUringTargetAdapter ω) {call : AdapterCall} {before after : List SystemEvent}
    {errno : ℤ}
    (h : FailsAt before after (call.run system adapter).1.answered .completing errno) :
    ∃ e, (call.run system adapter).1.outcome = .error e ∧ e.cls = .steve .hardwareIoError := by
  obtain ⟨completion, hanswered, hresult, herrno⟩ := h
  have hnegative : completion.result < 0 := by omega
  rw [IoUringTargetAdapter.run_answered system adapter hanswered, completionAnswer,
    if_pos hnegative]
  exact ⟨_, rfl, rfl⟩

/-- The POSIX adapter translates every failure but that of creating a directory. -/
theorem runPosix_translated {ω : Type} (system : PosixSystem ω)
    (adapter : PosixDirectIOAdapter (ω × List SystemEvent)) {call : AdapterCall}
    (halign : PageAligned call) {step : TransferStep} {errno : ℤ}
    (hstep : step ≠ .creatingParent)
    (h : FailsAt adapter.os.2 (call.runPosix (traced system) adapter).2.os.2 none step errno) :
    Translated (call.runPosix (traced system) adapter).1 errno := by
  by_cases hcompleting : step = .completing
  · rw [hcompleting] at h
    obtain ⟨completion, hnone, -⟩ := h
    cases hnone
  · obtain ⟨events, hlog, hsurfaces⟩ := PosixDirectIOAdapter.runPosix_surfaces system adapter
      ((assertAlignment_eq_none_iff call.buffer).mpr halign.address)
    obtain ⟨e, failed, failure, houtcome, hcls, hfailed, rfl⟩ :=
      h.raises hcompleting hlog hsurfaces
    refine ⟨e, houtcome, hcls.trans ?_⟩
    cases failed with
    | mkdirParents path =>
      cases hfailed
      exact absurd rfl hstep
    | openFile | lseek | write | read | fsync | closeFile => rfl

/-- The `io_uring` adapter raises its own class for a failed opening, and lets every other
failed system call through. -/
theorem run_raises {ω : Type} (system : OperatingSystem ω)
    (adapter : IoUringTargetAdapter (ω × List SystemEvent)) {call : AdapterCall}
    (halign : PageAligned call) {step : TransferStep} {errno : ℤ} (hstep : step ≠ .completing)
    (h : FailsAt adapter.os.2 (call.run (tracedOs system) adapter).2.os.2
      (call.run (tracedOs system) adapter).1.answered step errno) :
    ∃ e, (call.run (tracedOs system) adapter).1.outcome = .error e ∧
      e.cls = if step = .opening then .steve .adapterError else .osError errno := by
  obtain ⟨events, hlog, hsurfaces⟩ := IoUringTargetAdapter.run_surfaces system adapter halign
  obtain ⟨e, failed, failure, houtcome, hcls, hfailed, rfl⟩ := h.raises hstep hlog hsurfaces
  refine ⟨e, houtcome, hcls.trans ?_⟩
  cases failed with
  | openFile path opened =>
    cases hfailed
    rfl
  | mkdirParents | lseek | write | read | fsync | closeFile =>
    cases hfailed <;> rfl

/-- An outcome has one exception. -/
theorem translated_cls {outcome : Except PyException ℕ} {errno : ℤ} {raised : PyException}
    (h : Translated outcome errno) (hraised : outcome = .error raised) :
    raised.cls = .steve (errnoClass errno) := by
  obtain ⟨e, houtcome, hcls⟩ := h
  rw [hraised] at houtcome
  cases houtcome
  exact hcls

/-- A failure is translated uniformly exactly when it denies permission to open, or is a
negative completion that stands for a hardware fault. -/
theorem uniformlyTranslated_iff (step : TransferStep) (errno : ℤ) :
    UniformlyTranslated step errno ↔
      step = .opening ∧ (errno = 1 ∨ errno = 13) ∨
        step = .completing ∧ ¬ TranslatedOtherwise errno := by
  constructor
  · intro h
    by_cases hcompleting : step = .completing
    · refine Or.inr ⟨hcompleting, ?_⟩
      subst hcompleting
      by_cases herrno : 0 < errno
      · have hfails := faultyRun_fails .completing errno fun _ => herrno
        have htranslated := h.ioUring _ _ _ (pageWrite_aligned _) hfails
        obtain ⟨raised, hraised, hhardware⟩ := completion_raises _ _ hfails
        have hcls := translated_cls htranslated hraised
        rw [hhardware, ExceptionClass.steve.injEq] at hcls
        exact (errnoClass_hardware_iff errno).mp hcls.symm
      · unfold TranslatedOtherwise
        omega
    · have hfails := faultyRun_fails step errno fun h => absurd h hcompleting
      have htranslated := h.ioUring _ _ _ (pageWrite_aligned (-errno)) hfails
      obtain ⟨raised, hraised, hclass⟩ := run_raises _ _ (pageWrite_aligned _) hcompleting hfails
      have hcls := translated_cls htranslated hraised
      rw [hclass] at hcls
      by_cases hopening : step = .opening
      · rw [if_pos hopening, ExceptionClass.steve.injEq] at hcls
        exact Or.inl ⟨hopening, (errnoClass_adapter_iff errno).mp hcls.symm⟩
      · rw [if_neg hopening] at hcls
        cases hcls
  · rintro (⟨rfl, herrno⟩ | ⟨rfl, herrno⟩)
    · refine ⟨fun system adapter call halign hfails => ?_,
        fun system adapter call halign hfails => ?_⟩
      · exact runPosix_translated system adapter halign (by decide) hfails
      · obtain ⟨e, houtcome, hcls⟩ := run_raises system adapter halign (by decide) hfails
        refine ⟨e, houtcome, ?_⟩
        rw [hcls, if_pos rfl, (errnoClass_adapter_iff errno).mpr herrno]
    · refine ⟨fun system adapter call halign hfails => ?_,
        fun system adapter call halign hfails => ?_⟩
      · exact runPosix_translated system adapter halign (by decide) hfails
      · obtain ⟨e, houtcome, hcls⟩ := completion_raises (tracedOs system) adapter hfails
        refine ⟨e, houtcome, ?_⟩
        rw [hcls, (errnoClass_hardware_iff errno).mpr herrno]

/-- A full device fails a transfer with `ENOSPC`, which the ring reports as a hardware fault. -/
theorem uniformlyTranslated_full_device : ¬ UniformlyTranslated .completing 28 := by
  intro h
  have hfails := faultyRun_fails .completing 28 fun _ => by decide
  have htranslated := h.ioUring _ _ _ (pageWrite_aligned _) hfails
  obtain ⟨raised, hraised, hhardware⟩ := completion_raises _ _ hfails
  have hcls := translated_cls htranslated hraised
  rw [hhardware] at hcls
  exact absurd hcls (by decide)

end Steve.Adapters
