import Steve.Adapters.IoUring
import Steve.Library.StepSystem

/-!
# When the io_uring calls answer for themselves

On a quiescent ring a call that gets its request to the kernel takes that request's
completion. Two exits leave something behind for later calls: a refused submission leaves
the request prepared, and a negative completion is raised before it is marked as seen.
-/

namespace Steve.Adapters

open Steve.Library

/-- The answer a completion gives the call that submitted its request. -/
def completionAnswer (strerror : ℤ → String) (direction : String) (completion : RingRequest) :
    Except PyException ℕ :=
  if completion.result < 0 then .error (completionError strerror direction completion.result)
  else .ok completion.result.toNat

/-- The two transfers. -/
inductive Transfer
  | write
  | read
  deriving DecidableEq, Repr

/-- The word for a transfer in messages. -/
def Transfer.direction : Transfer → String
  | write => "write"
  | read => "read"

/-- One call on the adapter, with what the kernel answers during it. -/
structure AdapterCall where
  transfer : Transfer
  kernel : KernelAnswers
  target : TargetDescriptor
  offset : ℕ
  buffer : DirectBuffer (List Byte)

section Ring

variable (strerror : ℤ → String) (direction : String) (kernel : KernelAnswers)
  (operation : RingOperation) (userData : ℕ) (view filled : List Byte)

/-- A call that finds no slot raises and leaves a quiescent ring as it was. -/
theorem ringTransfer_saturated {ring : Ring} (h : ring.Quiescent)
    (hslot : kernel.slot = false ∧ kernel.retrySlot = false) :
    ∃ e, ringTransfer strerror direction kernel operation userData view filled ring =
      (⟨.error e, none, view⟩, ring) := by
  simp only [ringTransfer, h.submit, ite_self, if_pos hslot]
  exact ⟨_, rfl⟩

/-- A call whose submission is refused raises and leaves its request prepared. -/
theorem ringTransfer_refused {ring : Ring} (h : ring.Quiescent)
    (hslot : ¬ (kernel.slot = false ∧ kernel.retrySlot = false)) (hcode : kernel.submitCode < 0) :
    ∃ e, ringTransfer strerror direction kernel operation userData view filled ring =
      (⟨.error e, none, view⟩, ring.prep operation userData kernel.result) := by
  have hkept (prepared : Ring) : prepared.submit kernel.submitCode = prepared := if_pos hcode
  simp only [ringTransfer, h.submit, ite_self, if_neg hslot, dif_pos hcode, hkept]
  exact ⟨_, rfl⟩

/-- A call that submits takes its own completion, and marks it as seen unless negative. -/
theorem ringTransfer_submitted {ring : Ring} (h : ring.Quiescent)
    (hslot : ¬ (kernel.slot = false ∧ kernel.retrySlot = false))
    (hcode : ¬ kernel.submitCode < 0) :
    ringTransfer strerror direction kernel operation userData view filled ring =
      (⟨completionAnswer strerror direction
          ⟨ring.nextTicket, operation, userData, kernel.result⟩,
        some ⟨ring.nextTicket, operation, userData, kernel.result⟩, filled⟩,
        if kernel.result < 0 then
          ⟨ring.nextTicket + 1, [], [⟨ring.nextTicket, operation, userData, kernel.result⟩]⟩
        else ⟨ring.nextTicket + 1, [], []⟩) := by
  simp only [ringTransfer, h.submit, ite_self, if_neg hslot, dif_neg hcode,
    h.submit_prep operation userData kernel.result hcode, Ring.waitCqe, List.head_cons,
    completionAnswer, Ring.cqeSeen, List.tail_cons]
  split <;> rfl

end Ring

section Calls

variable {ω : Type} (system : OperatingSystem ω)

/-- Make one call. -/
def AdapterCall.run (adapter : IoUringTargetAdapter ω) (call : AdapterCall) :
    CallReport × IoUringTargetAdapter ω :=
  match call.transfer with
  | .write => adapter.write system call.kernel call.target call.offset call.buffer
  | .read => adapter.read system call.kernel call.target call.offset call.buffer

/-- A call's request to the kernel, on a descriptor. -/
def AdapterCall.operation (call : AdapterCall) (fd : ℕ) : RingOperation :=
  match call.transfer with
  | .write => .write fd call.buffer.view call.offset
  | .read => .read fd call.buffer.view call.offset

/-- The user data of a call's request. -/
def AdapterCall.userData (call : AdapterCall) : ℕ :=
  match call.transfer with
  | .write => 1
  | .read => 2

/-- The buffer after a call that submitted its request. -/
def AdapterCall.filled (call : AdapterCall) : List Byte :=
  match call.transfer with
  | .write => call.buffer.view
  | .read => call.kernel.fill call.buffer.view

/-- What a call does before it turns to the ring. -/
def AdapterCall.prepared (adapter : IoUringTargetAdapter ω) (call : AdapterCall) :
    Except PyException ℕ × IoUringTargetAdapter ω :=
  adapter.prepareTransfer system call.kernel.initCode call.target call.offset call.buffer

/-- An initialized adapter on a quiescent ring. -/
structure Ready (adapter : IoUringTargetAdapter ω) : Prop where
  initialized : adapter.initialized = true
  quiescent : ∃ ring, adapter.ring = some ring ∧ ring.Quiescent

/-- A new adapter is ready once its rings are set up. -/
theorem ready_of_initialize (queueDepth : ℕ) (os : ω) {code : ℤ} (h : ¬ code < 0) :
    Ready ((IoUringTargetAdapter.init true queueDepth os).initializeAdapter system code).2 := by
  simp only [IoUringTargetAdapter.init, IoUringTargetAdapter.initializeAdapter, if_true,
    Bool.false_eq_true, if_false, if_neg h]
  exact ⟨rfl, Ring.empty, rfl, rfl, rfl⟩

/-- Preparing a transfer on an initialized adapter leaves its ring alone. -/
theorem prepared_ring {adapter : IoUringTargetAdapter ω} (h : adapter.initialized = true)
    (call : AdapterCall) :
    (call.prepared system adapter).2.initialized = true ∧
      (call.prepared system adapter).2.ring = adapter.ring := by
  have hinit : adapter.initializeAdapter system call.kernel.initCode = (.ok (), adapter) :=
    if_pos h
  simp only [AdapterCall.prepared, IoUringTargetAdapter.prepareTransfer, hinit]
  split
  · exact ⟨h, rfl⟩
  · simp only [IoUringTargetAdapter.getOrOpenFd]
    split
    · exact ⟨h, rfl⟩
    · split
      · exact ⟨h, rfl⟩
      · split <;> exact ⟨h, rfl⟩

/-- A call that fails before the ring raises and changes nothing on it. -/
theorem run_of_prepared_error {adapter next : IoUringTargetAdapter ω} {call : AdapterCall}
    {e : PyException} (h : call.prepared system adapter = (.error e, next)) :
    call.run system adapter = (⟨.error e, none, call.buffer.view⟩, next) := by
  unfold AdapterCall.prepared at h
  cases htransfer : call.transfer with
  | write => simp only [AdapterCall.run, htransfer, IoUringTargetAdapter.write, h]
  | read => simp only [AdapterCall.run, htransfer, IoUringTargetAdapter.read, h]

/-- A call that gets a descriptor goes to the ring with its request. -/
theorem run_of_prepared_ok {adapter next : IoUringTargetAdapter ω} {call : AdapterCall} {fd : ℕ}
    {ring : Ring} (h : call.prepared system adapter = (.ok fd, next))
    (hring : next.ring = some ring) :
    call.run system adapter =
      ((ringTransfer system.strerror call.transfer.direction call.kernel (call.operation fd)
          call.userData call.buffer.view call.filled ring).1,
        { next with ring := some (ringTransfer system.strerror call.transfer.direction call.kernel
          (call.operation fd) call.userData call.buffer.view call.filled ring).2 }) := by
  unfold AdapterCall.prepared at h
  cases htransfer : call.transfer with
  | write =>
    simp only [AdapterCall.run, AdapterCall.operation, AdapterCall.userData, AdapterCall.filled,
      Transfer.direction, htransfer, IoUringTargetAdapter.write, h, hring]
  | read =>
    simp only [AdapterCall.run, AdapterCall.operation, AdapterCall.userData, AdapterCall.filled,
      Transfer.direction, htransfer, IoUringTargetAdapter.read, h, hring]

/-- A call answers for itself: it raises without a completion, or it answers as the
completion of the very request it submitted. -/
def Attributed (entry : TraceEntry (IoUringTargetAdapter ω) AdapterCall CallReport) : Prop :=
  match entry.output.answered with
  | none => ∃ e, entry.output.outcome = .error e
  | some completion =>
    (∃ ring, entry.before.ring = some ring ∧ completion.ticket = ring.nextTicket) ∧
      entry.output.outcome =
        completionAnswer system.strerror entry.input.transfer.direction completion

/-- A call answers for itself and leaves the ring quiescent. -/
structure CallKept (entry : TraceEntry (IoUringTargetAdapter ω) AdapterCall CallReport) :
    Prop where
  attributed : Attributed system entry
  quiescent : ∃ ring, entry.after.ring = some ring ∧ ring.Quiescent

/-- If a call gets as far as a submission slot, its submission is accepted and its request
does not fail. -/
def CleanCall (adapter : IoUringTargetAdapter ω) (call : AdapterCall) : Prop :=
  (∃ fd, (call.prepared system adapter).1 = .ok fd) →
    (call.kernel.slot = true ∨ call.kernel.retrySlot = true) →
      0 ≤ call.kernel.submitCode ∧ 0 ≤ call.kernel.result

/-- The trace entry of one call. -/
def callEntry (adapter : IoUringTargetAdapter ω) (call : AdapterCall) :
    TraceEntry (IoUringTargetAdapter ω) AdapterCall CallReport :=
  ⟨adapter, call, (call.run system adapter).1, (call.run system adapter).2⟩

/-- A call that raises without a completion keeps its contract exactly when it leaves the
ring quiescent. -/
theorem callKept_of_raised {adapter after : IoUringTargetAdapter ω} {call : AdapterCall}
    {e : PyException} {view : List Byte} {ring : Ring}
    (hrun : call.run system adapter = (⟨.error e, none, view⟩, after))
    (hring : after.ring = some ring) :
    CallKept system (callEntry system adapter call) ↔ ring.Quiescent := by
  constructor
  · intro h
    obtain ⟨kept, hkept, hquiescent⟩ := h.quiescent
    rw [callEntry, hrun] at hkept
    rw [← Option.some.inj (hring.symm.trans hkept)] at hquiescent
    exact hquiescent
  · intro h
    refine ⟨?_, ring, ?_, h⟩
    · rw [callEntry, hrun]
      exact ⟨e, rfl⟩
    · rw [callEntry, hrun]
      exact hring

/-- A call that takes its own completion keeps its contract exactly when that completion is
not negative. -/
theorem callKept_of_submitted {adapter next : IoUringTargetAdapter ω} {call : AdapterCall}
    {fd : ℕ} {ring : Ring} (hbefore : adapter.ring = some ring) (hquiescent : ring.Quiescent)
    (hprepared : call.prepared system adapter = (.ok fd, next)) (hring : next.ring = some ring)
    (hslot : ¬ (call.kernel.slot = false ∧ call.kernel.retrySlot = false))
    (hcode : ¬ call.kernel.submitCode < 0) :
    CallKept system (callEntry system adapter call) ↔ 0 ≤ call.kernel.result := by
  have hrun := run_of_prepared_ok system hprepared hring
  rw [ringTransfer_submitted _ _ _ _ _ _ _ hquiescent hslot hcode] at hrun
  constructor
  · intro h
    obtain ⟨kept, hkept, hempty⟩ := h.quiescent
    rw [callEntry, hrun] at hkept
    by_contra hnegative
    rw [if_pos (Int.not_le.mp hnegative)] at hkept
    have hcompletions := hempty.completions
    rw [← Option.some.inj hkept] at hcompletions
    cases hcompletions
  · intro h
    refine ⟨?_, ⟨ring.nextTicket + 1, [], []⟩, ?_, ⟨rfl, rfl⟩⟩
    · rw [callEntry, hrun]
      exact ⟨⟨ring, hbefore, rfl⟩, rfl⟩
    · rw [callEntry, hrun, if_neg (Int.not_lt.mpr h)]

/-- A call that gets no descriptor is clean. -/
theorem cleanCall_of_prepared_error {adapter next : IoUringTargetAdapter ω} {call : AdapterCall}
    {e : PyException} (h : call.prepared system adapter = (.error e, next)) :
    CleanCall system adapter call := by
  intro hfd
  obtain ⟨fd, hfd⟩ := hfd
  rw [h] at hfd
  cases hfd

/-- A call whose submission is refused leaves its request behind. -/
theorem not_quiescent_prep (ring : Ring) (operation : RingOperation) (userData : ℕ)
    (result : ℤ) : ¬ (ring.prep operation userData result).Quiescent := by
  intro h
  have hprepared := h.prepared
  simp [Ring.prep] at hprepared

/-- On a ready adapter, a call keeps its contract exactly when it is clean. -/
theorem callKept_iff {adapter : IoUringTargetAdapter ω} (hready : Ready adapter)
    (call : AdapterCall) :
    CallKept system (callEntry system adapter call) ↔ CleanCall system adapter call := by
  obtain ⟨ring, hring, hquiescent⟩ := hready.quiescent
  have hnext := (prepared_ring system hready.initialized call).2
  cases hprepared : call.prepared system adapter with
  | mk answer next =>
    rw [hprepared, hring] at hnext
    cases answer with
    | error e =>
      rw [callKept_of_raised system (run_of_prepared_error system hprepared) hnext]
      exact iff_of_true hquiescent (cleanCall_of_prepared_error system hprepared)
    | ok fd =>
      have hrun := run_of_prepared_ok system hprepared hnext
      have hreached : ∃ fd, (call.prepared system adapter).1 = .ok fd := ⟨fd, by rw [hprepared]⟩
      by_cases hslot : call.kernel.slot = false ∧ call.kernel.retrySlot = false
      · obtain ⟨e, hsaturated⟩ := ringTransfer_saturated system.strerror call.transfer.direction
          call.kernel (call.operation fd) call.userData call.buffer.view call.filled hquiescent
          hslot
        rw [hsaturated] at hrun
        rw [callKept_of_raised system hrun rfl]
        refine iff_of_true hquiescent ?_
        intro _ hgranted
        simp [hslot] at hgranted
      · have hgranted : call.kernel.slot = true ∨ call.kernel.retrySlot = true := by
          simpa [Decidable.or_iff_not_not_and_not] using hslot
        by_cases hcode : call.kernel.submitCode < 0
        · obtain ⟨e, hrefused⟩ := ringTransfer_refused system.strerror call.transfer.direction
            call.kernel (call.operation fd) call.userData call.buffer.view call.filled hquiescent
            hslot hcode
          rw [hrefused] at hrun
          rw [callKept_of_raised system hrun rfl]
          refine iff_of_false (not_quiescent_prep _ _ _ _) ?_
          intro hclean
          have haccepted := (hclean hreached hgranted).1
          omega
        · rw [callKept_of_submitted system hring hquiescent hprepared hnext hslot hcode]
          constructor
          · intro h _ _
            exact ⟨Int.not_lt.mp hcode, h⟩
          · intro hclean
            exact (hclean hreached hgranted).2

/-- A call that keeps its contract on a ready adapter leaves it ready. -/
theorem ready_of_callKept {adapter : IoUringTargetAdapter ω} (hready : Ready adapter)
    {call : AdapterCall} (h : CallKept system (callEntry system adapter call)) :
    Ready (call.run system adapter).2 := by
  refine ⟨?_, h.quiescent⟩
  obtain ⟨ring, hring, -⟩ := hready.quiescent
  obtain ⟨hinit, hnext⟩ := prepared_ring system hready.initialized call
  cases hprepared : call.prepared system adapter with
  | mk answer next =>
    rw [hprepared] at hinit hnext
    cases answer with
    | error e =>
      rw [run_of_prepared_error system hprepared]
      exact hinit
    | ok fd =>
      rw [run_of_prepared_ok system hprepared (hnext.trans hring)]
      exact hinit

/-- In every sequence of calls on a ready adapter, all calls answer for themselves and leave
the ring quiescent if and only if all of them are clean. -/
theorem calls_kept_iff {adapter : IoUringTargetAdapter ω} (hready : Ready adapter)
    (calls : List AdapterCall) :
    (∀ entry ∈ machineTrace (AdapterCall.run system) adapter calls, CallKept system entry) ↔
      ∀ entry ∈ machineTrace (AdapterCall.run system) adapter calls,
        CleanCall system entry.before entry.input := by
  apply machineTrace_forall_iff (AdapterCall.run system) Ready
  · intro state call hstate
    exact callKept_iff system hstate call
  · intro state call hstate hkept
    exact ready_of_callKept system hstate hkept
  · exact hready

end Calls

/-- A system on which every call succeeds and every file gets descriptor 3. -/
def quietSystem : OperatingSystem Unit where
  parentExists := fun _ _ => true
  mkdirParents := fun os _ => (.ok (), os)
  openFile := fun os _ => (.ok 3, os)
  lseek := fun os _ _ => (.ok (), os)
  write := fun os _ view => (.ok view.length, os)
  read := fun os _ size => (.ok (List.replicate size.toNat 0#8), os)
  fsync := fun os _ => (.ok (), os)
  closeFile := fun os _ => (.ok (), os)
  strerror := fun code => if code = 5 then "Input/output error" else "Unknown error"

/-- An initialized adapter before its first call. -/
def freshAdapter : IoUringTargetAdapter Unit :=
  ((IoUringTargetAdapter.init true 64 ()).initializeAdapter quietSystem 0).2

/-- A write of one page that the kernel accepts and completes with the given result. -/
def pageWrite (result : ℤ) : AdapterCall where
  transfer := .write
  kernel := ⟨0, true, 0, true, 1, result, id⟩
  target := ⟨"file://local", "mock_iouring.dat"⟩
  offset := 0
  buffer := ⟨4096, 4096, List.replicate 4096 0#8⟩

/-- The fresh adapter is ready. -/
theorem freshAdapter_ready : Ready freshAdapter :=
  ready_of_initialize quietSystem 64 () (by decide)

/-- Two writes of a page that succeed. -/
theorem calls_kept_iff_two_writes :
    (∀ entry ∈ machineTrace (AdapterCall.run quietSystem) freshAdapter
        [pageWrite 4096, pageWrite 4096], CallKept quietSystem entry) ↔
      ∀ entry ∈ machineTrace (AdapterCall.run quietSystem) freshAdapter
        [pageWrite 4096, pageWrite 4096], CleanCall quietSystem entry.before entry.input :=
  calls_kept_iff quietSystem freshAdapter_ready [pageWrite 4096, pageWrite 4096]

/-- After a write that fails with `EIO`, the next write takes that failure's completion. -/
theorem failed_write_answers_next_call :
    ¬ (∀ entry ∈ machineTrace (AdapterCall.run quietSystem) freshAdapter
        [pageWrite (-5), pageWrite 4096], CallKept quietSystem entry) ∧
      (machineTrace (AdapterCall.run quietSystem) freshAdapter
        [pageWrite (-5), pageWrite 4096]).map
          (fun entry => entry.output.answered.map RingRequest.ticket) = [some 0, some 0] := by
  refine ⟨?_, rfl⟩
  intro h
  obtain ⟨ring, hring, hempty⟩ := (h _ List.mem_cons_self).quiescent
  have hcompletions := hempty.completions
  rw [← Option.some.inj hring] at hcompletions
  cases hcompletions

end Steve.Adapters
