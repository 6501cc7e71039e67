import Steve.Adapters.FileRefinement
import Steve.Adapters.IoUringAttribution

/-!
# The ring path refines the store

Here the kernel behind the rings executes every request submitted to it, as a transfer at the
request's own position that moves no cursor. As long as no submission is refused, each call
leaves the rings quiescent, so a call either is turned away before it reaches a file, for one
of three reasons, or answers as the store does. Where no call is turned away, the ring path
and the plain system calls answer alike.
-/

namespace Steve.Adapters

open Steve.Library

/-- A kernel executing requests: a request's result, what it leaves in its buffer, and the
system after it. -/
structure RingKernel (ω : Type) where
  execute : ω → RingOperation → (ℤ × List Byte) × ω

/-- Whether the kernel takes a request: there is a slot, and the submission is accepted. -/
def KernelAnswers.Submits (answers : KernelAnswers) : Prop :=
  ¬ (answers.slot = false ∧ answers.retrySlot = false) ∧ ¬ answers.submitCode < 0

instance (answers : KernelAnswers) : Decidable answers.Submits :=
  inferInstanceAs (Decidable (_ ∧ _))

section Machine

variable {ω : Type} (system : OperatingSystem ω) (kernel : RingKernel ω)

/-- A call whose request has a given result and leaves given bytes in the buffer. -/
def AdapterCall.answered (call : AdapterCall) (answer : ℤ × List Byte) : AdapterCall :=
  { call with kernel := { call.kernel with result := answer.1, fill := fun _ => answer.2 } }

/-- Make one call, whose request the kernel executes if it takes it. -/
def AdapterCall.runOn (adapter : IoUringTargetAdapter ω) (call : AdapterCall) :
    CallReport × IoUringTargetAdapter ω :=
  match call.prepared system adapter with
  | (.error _, _) => call.run system adapter
  | (.ok fd, prepared) =>
    if call.kernel.Submits then
      let executed := kernel.execute prepared.os (call.operation fd)
      let (report, next) := (call.answered executed.1).run system adapter
      (report, { next with os := executed.2 })
    else call.run system adapter

/-- The adapter on a ring serving a call, with the kernel's other answers during it. -/
def ringStep (adapter : IoUringTargetAdapter ω) (input : KernelAnswers × StoreCall) :
    StoreAnswer × IoUringTargetAdapter ω :=
  match input.2 with
  | .write target offset payload =>
    let (report, next) := AdapterCall.runOn system kernel adapter
      ⟨.write, input.1, target, offset, payload⟩
    (⟨report.outcome, report.view⟩, next)
  | .read target offset buffer =>
    let (report, next) := AdapterCall.runOn system kernel adapter
      ⟨.read, input.1, target, offset, buffer⟩
    (⟨report.outcome, report.view⟩, next)
  | .flush target => (⟨.ok 0, []⟩, adapter.flush system input.1.submitCode target)
  | .close => (⟨.ok 0, []⟩, adapter.close system)

end Machine

section Reference

/-- Why a transfer is turned away before it reaches a file, if it is: the rings cannot be set
up, a boundary is violated, or no slot is free. -/
def turnedAway (strerror : ℤ → String) (initialized : Bool) (answers : KernelAnswers)
    (offset : ℕ) (buffer : DirectBuffer (List Byte)) : Option PyException :=
  if initialized = false ∧ answers.initCode < 0 then
    let reason := strerror (-answers.initCode)
    some (adapterError s!"Failed to initialize io_uring ring: {reason}")
  else match IoUringTargetAdapter.verifyAlignment buffer offset with
    | some e => some e
    | none =>
      if answers.slot = false ∧ answers.retrySlot = false then
        some ⟨.steve .queueFullError, "io_uring submission queue saturated"⟩
      else none

/-- A store behind rings serving a transfer; the rings are set up or not. -/
def ringReferenceTransfer (strerror : ℤ → String) (state : Bool × (String → List Byte))
    (input : KernelAnswers × StoreCall) (offset : ℕ) (buffer : DirectBuffer (List Byte)) :
    StoreAnswer × (Bool × (String → List Byte)) :=
  let ready := state.1 || !decide (input.1.initCode < 0)
  match turnedAway strerror state.1 input.1 offset buffer with
  | some e => (⟨.error e, buffer.view⟩, (ready, state.2))
  | none => ((referenceStep state.2 input.2).1, (ready, (referenceStep state.2 input.2).2))

/-- A store behind rings serving a call. -/
def ringReferenceStep (strerror : ℤ → String) (state : Bool × (String → List Byte))
    (input : KernelAnswers × StoreCall) : StoreAnswer × (Bool × (String → List Byte)) :=
  match input.2 with
  | .write _ offset payload => ringReferenceTransfer strerror state input offset payload
  | .read _ offset buffer => ringReferenceTransfer strerror state input offset buffer
  | .flush _ => (⟨.ok 0, []⟩, state)
  | .close => (⟨.ok 0, []⟩, (false, state.2))

end Reference

section Semantics

variable {ω : Type} {F : Type} [DecidableEq F]

/-- The kernel moves every transfer on an open descriptor in full, at its own position. -/
structure RingKernel.Performs {system : OperatingSystem ω} (kernel : RingKernel ω)
    (semantics : FileSemantics F system) : Prop where
  write : ∀ os fd file cursor data offset,
    (semantics.view os).descriptor fd = some (file, cursor) →
      ∃ next, kernel.execute os (.write fd data offset) = (((data.length : ℤ), data), next) ∧
        (semantics.view next).descriptor = (semantics.view os).descriptor ∧
        (semantics.view next).content = Function.update (semantics.view os).content file
          (writeAt ((semantics.view os).content file) offset data)
  read : ∀ os fd file cursor view offset,
    (semantics.view os).descriptor fd = some (file, cursor) →
      ∃ next, kernel.execute os (.read fd view offset) =
          ((((readAt ((semantics.view os).content file) offset view.length).length : ℤ),
            filled view (readAt ((semantics.view os).content file) offset view.length)), next) ∧
        semantics.view next = semantics.view os

/-- A call on one of the given paths whose submission, if it makes one, is not refused. -/
def Accepted (paths : Set String) (input : KernelAnswers × StoreCall) : Prop :=
  match input.2 with
  | .write target _ _ => target.resourcePath ∈ paths ∧ ¬ input.1.submitCode < 0
  | .read target _ _ => target.resourcePath ∈ paths ∧ ¬ input.1.submitCode < 0
  | .flush target => target.resourcePath ∈ paths
  | .close => True

variable {system : OperatingSystem ω} {semantics : FileSemantics F system} {paths : Set String}
  {fds : Dict String ℕ} {os next : ω} {store : String → List Byte}

/-- A transfer at a position of its own writes the store at its path. -/
theorem Represents.positional (h : Represents semantics paths fds os store)
    (hdistinct : Set.InjOn semantics.fileOf paths) {path : String} (hpath : path ∈ paths)
    {data : List Byte} {offset : ℕ}
    (hdescriptor : (semantics.view next).descriptor = (semantics.view os).descriptor)
    (hcontent : (semantics.view next).content =
      Function.update (semantics.view os).content (semantics.fileOf path)
        (writeAt ((semantics.view os).content (semantics.fileOf path)) offset data)) :
    Represents semantics paths fds next
      (Function.update store path (writeAt (store path) offset data)) where
  toCacheOpen := h.toCacheOpen.of_descriptor_eq hdescriptor
  content := by
    intro other hother
    rw [hcontent]
    by_cases hsame : other = path
    · rw [hsame, Function.update_self, Function.update_self, h.content path hpath]
    · have hfile : semantics.fileOf other ≠ semantics.fileOf path :=
        fun heq => hsame (hdistinct hother hpath heq)
      rw [Function.update_of_ne hfile, Function.update_of_ne hsame]
      exact h.content other hother

end Semantics

section Refinement

variable {ω : Type} {F : Type} [DecidableEq F] {system : PosixSystem ω}
  {semantics : FileSemantics F system.toOperatingSystem} {paths : Set String}
  {adapter : IoUringTargetAdapter ω} {initialized : Bool} {store : String → List Byte}

/-- The state of an adapter on a ring represents a store, with nothing left on the ring. -/
structure RingRepresents (semantics : FileSemantics F system.toOperatingSystem)
    (paths : Set String) (adapter : IoUringTargetAdapter ω)
    (state : Bool × (String → List Byte)) : Prop where
  represents : Represents semantics paths adapter.fds adapter.os state.2
  initialized : adapter.initialized = state.1
  quiescent : ∃ ring, adapter.ring = some ring ∧ ring.Quiescent

/-- Getting a descriptor has nothing to do with the ring. -/
theorem getOrOpenFd_setRing (target : TargetDescriptor) (adapter : IoUringTargetAdapter ω)
    (ring : Option Ring) :
    IoUringTargetAdapter.getOrOpenFd system.toOperatingSystem target
        { adapter with ring := ring } =
      ((adapter.getOrOpenFd system.toOperatingSystem target).1,
        { (adapter.getOrOpenFd system.toOperatingSystem target).2 with ring := ring }) := by
  simp only [IoUringTargetAdapter.getOrOpenFd]
  split
  · rfl
  · split
    · rfl
    · split <;> rfl

/-- Setting up the rings, or having done so before, keeps what is represented. -/
theorem RingRepresents.initializeAdapter
    (h : RingRepresents semantics paths adapter (initialized, store)) {initCode : ℤ}
    (hcode : ¬ (initialized = false ∧ initCode < 0)) :
    ∃ ready, adapter.initializeAdapter system.toOperatingSystem initCode = (.ok (), ready) ∧
      RingRepresents semantics paths ready (true, store) := by
  obtain ⟨ring, hring, hquiescent⟩ := h.quiescent
  rw [IoUringTargetAdapter.initializeAdapter, h.initialized]
  cases initialized with
  | true => exact ⟨adapter, rfl, h.represents, h.initialized, h.quiescent⟩
  | false =>
    have haccepted : ¬ initCode < 0 := fun hnegative => hcode ⟨rfl, hnegative⟩
    simp only [Bool.false_eq_true, if_false, hring, if_neg haccepted]
    exact ⟨_, rfl, h.represents, rfl, Ring.empty, rfl, rfl, rfl⟩

/-- A failed set-up of the rings ends a call and changes nothing. -/
theorem RingRepresents.prepared_uninitialized
    (h : RingRepresents semantics paths adapter (false, store)) (call : AdapterCall)
    (hcode : call.kernel.initCode < 0) :
    call.prepared system.toOperatingSystem adapter =
      (.error (adapterError ("Failed to initialize io_uring ring: " ++
        system.strerror (-call.kernel.initCode))), adapter) := by
  obtain ⟨ring, hring, -⟩ := h.quiescent
  have hinit : adapter.initialized = false := h.initialized
  simp only [AdapterCall.prepared, IoUringTargetAdapter.prepareTransfer,
    IoUringTargetAdapter.initializeAdapter, hinit, Bool.false_eq_true, if_false, hring,
    if_pos hcode]
  rfl

/-- A violated boundary ends a call once the rings are set up. -/
theorem RingRepresents.prepared_misaligned
    (h : RingRepresents semantics paths adapter (initialized, store)) {call : AdapterCall}
    (hcode : ¬ (initialized = false ∧ call.kernel.initCode < 0)) {e : PyException}
    (hmisaligned : IoUringTargetAdapter.verifyAlignment call.buffer call.offset = some e) :
    ∃ ready, call.prepared system.toOperatingSystem adapter = (.error e, ready) ∧
      RingRepresents semantics paths ready (true, store) := by
  obtain ⟨ready, hready, hnext⟩ := h.initializeAdapter hcode
  refine ⟨ready, ?_, hnext⟩
  simp only [AdapterCall.prepared, IoUringTargetAdapter.prepareTransfer, hready, hmisaligned]

/-- Otherwise a call gets a descriptor, which it caches. -/
theorem RingRepresents.prepared_aligned
    (h : RingRepresents semantics paths adapter (initialized, store))
    (hreliable : semantics.Reliable paths) {call : AdapterCall}
    (hpath : call.target.resourcePath ∈ paths)
    (hcode : ¬ (initialized = false ∧ call.kernel.initCode < 0))
    (haligned : IoUringTargetAdapter.verifyAlignment call.buffer call.offset = none) :
    ∃ fd next, call.prepared system.toOperatingSystem adapter = (.ok fd, next) ∧
      RingRepresents semantics paths next (true, store) ∧
      next.fds.get? call.target.resourcePath = some fd := by
  obtain ⟨ready, hready, hnext⟩ := h.initializeAdapter hcode
  have hprepared : call.prepared system.toOperatingSystem adapter =
      ready.getOrOpenFd system.toOperatingSystem call.target := by
    simp only [AdapterCall.prepared, IoUringTargetAdapter.prepareTransfer, hready, haligned]
  have hinit : ready.initializeAdapter system.toOperatingSystem call.kernel.initCode =
      (.ok (), ready) := if_pos hnext.initialized
  have hsame : call.prepared system.toOperatingSystem ready =
      ready.getOrOpenFd system.toOperatingSystem call.target := by
    simp only [AdapterCall.prepared, IoUringTargetAdapter.prepareTransfer, hinit, haligned]
  have hkept := prepared_ring system.toOperatingSystem hnext.initialized call
  rw [hsame] at hkept
  have hfallback : FallbackRepresents semantics paths { ready with ring := none } store :=
    ⟨hnext.represents, rfl⟩
  obtain ⟨fd, opened, hopened, hrepresents, hcached⟩ :=
    hfallback.getOrOpenFd hreliable hpath
  rw [getOrOpenFd_setRing, Prod.mk.injEq] at hopened
  obtain ⟨hfd, rfl⟩ := hopened
  refine ⟨fd, _, hprepared.trans (Prod.ext hfd rfl), ⟨hrepresents.represents, hkept.1, ?_⟩,
    hcached⟩
  rw [hkept.2]
  exact hnext.quiescent

/-- A call that finds no slot says so and leaves a quiescent ring as it was. -/
theorem ringTransfer_queueFull (strerror : ℤ → String) (direction : String)
    {answers : KernelAnswers} (operation : RingOperation) (userData : ℕ)
    (view filled : List Byte) {ring : Ring} (h : ring.Quiescent)
    (hslot : answers.slot = false ∧ answers.retrySlot = false) :
    ringTransfer strerror direction answers operation userData view filled ring =
      (⟨.error ⟨.steve .queueFullError, "io_uring submission queue saturated"⟩, none, view⟩,
        ring) := by
  simp only [ringTransfer, h.submit, ite_self, if_pos hslot]

/-- A call whose request is executed answers with the request's result. -/
theorem runOn_submitted {kernel : RingKernel ω} {next : IoUringTargetAdapter ω}
    {call : AdapterCall} {fd count : ℕ} {view : List Byte} {os : ω}
    (hprepared : call.prepared system.toOperatingSystem adapter = (.ok fd, next))
    (hnext : ∃ ring, next.ring = some ring ∧ ring.Quiescent) (hsubmits : call.kernel.Submits)
    (hexecute : kernel.execute next.os (call.operation fd) = (((count : ℤ), view), os)) :
    ∃ ring completion, ring.Quiescent ∧
      call.runOn system.toOperatingSystem kernel adapter =
        (⟨.ok count, some completion, (call.answered ((count : ℤ), view)).filled⟩,
          { next with ring := some ring, os := os }) := by
  obtain ⟨ring, hring, hquiescent⟩ := hnext
  have hcount : ¬ (count : ℤ) < 0 := Int.not_lt.mpr (Int.natCast_nonneg count)
  have hanswered : (call.answered ((count : ℤ), view)).prepared system.toOperatingSystem adapter =
      (.ok fd, next) := hprepared
  have hslot : ¬ ((call.answered ((count : ℤ), view)).kernel.slot = false ∧
      (call.answered ((count : ℤ), view)).kernel.retrySlot = false) := hsubmits.1
  have hcode : ¬ (call.answered ((count : ℤ), view)).kernel.submitCode < 0 := hsubmits.2
  refine ⟨⟨ring.nextTicket + 1, [], []⟩,
    ⟨ring.nextTicket, call.operation fd, call.userData, (count : ℤ)⟩, ⟨rfl, rfl⟩, ?_⟩
  simp only [AdapterCall.runOn, hprepared, if_pos hsubmits, hexecute,
    run_of_prepared_ok system.toOperatingSystem hanswered hring]
  rw [ringTransfer_submitted _ _ _ _ _ _ _ hquiescent hslot hcode]
  simp only [completionAnswer, AdapterCall.answered]
  rfl

/-- What a call asks of the store. -/
def AdapterCall.storeCall (call : AdapterCall) : StoreCall :=
  match call.transfer with
  | .write => .write call.target call.offset call.buffer
  | .read => .read call.target call.offset call.buffer

/-- An executed request answers as the store does and takes the system to its next state. -/
theorem RingRepresents.execute (h : RingRepresents semantics paths adapter (initialized, store))
    (hdistinct : Set.InjOn semantics.fileOf paths) {kernel : RingKernel ω}
    (hkernel : kernel.Performs semantics) {call : AdapterCall}
    (hpath : call.target.resourcePath ∈ paths) {fd : ℕ}
    (hcached : adapter.fds.get? call.target.resourcePath = some fd) :
    ∃ (count : ℕ) (view : List Byte) (next : ω),
      kernel.execute adapter.os (call.operation fd) =
        (((count : ℤ), view), next) ∧
      (⟨.ok count, (call.answered ((count : ℤ), view)).filled⟩ : StoreAnswer) =
        (referenceStep store call.storeCall).1 ∧
      Represents semantics paths adapter.fds next (referenceStep store call.storeCall).2 := by
  obtain ⟨transfer, answers, target, offset, buffer⟩ := call
  obtain ⟨cursor, hopen⟩ := h.represents.cached _ fd hcached
  cases transfer with
  | write =>
    obtain ⟨next, hexecute, hdescriptor, hcontent⟩ :=
      hkernel.write adapter.os fd _ cursor buffer.view offset hopen
    exact ⟨_, _, next, hexecute, rfl,
      h.represents.positional hdistinct hpath hdescriptor hcontent⟩
  | read =>
    obtain ⟨next, hexecute, hview⟩ := hkernel.read adapter.os fd _ cursor buffer.view offset hopen
    rw [h.represents.content _ hpath] at hexecute
    exact ⟨_, _, next, hexecute, rfl, h.represents.of_view_eq hview⟩

/-- Setting up the rings succeeds on an adapter that has done so or gets leave to. -/
theorem ready_eq_true {initCode : ℤ} (hcode : ¬ (initialized = false ∧ initCode < 0)) :
    (initialized || !decide (initCode < 0)) = true := by
  cases initialized with
  | true => rfl
  | false =>
    have haccepted : ¬ initCode < 0 := fun hnegative => hcode ⟨rfl, hnegative⟩
    simp only [haccepted, decide_false, Bool.not_false, Bool.or_true]

/-- A call that is turned away raises the reason and leaves the store. -/
theorem RingRepresents.runOn_turnedAway
    (h : RingRepresents semantics paths adapter (initialized, store))
    (hreliable : semantics.Reliable paths) (kernel : RingKernel ω) {call : AdapterCall}
    (hpath : call.target.resourcePath ∈ paths) {e : PyException}
    (haway : turnedAway system.strerror initialized call.kernel call.offset call.buffer = some e) :
    ∃ next, call.runOn system.toOperatingSystem kernel adapter =
        (⟨.error e, none, call.buffer.view⟩, next) ∧
      RingRepresents semantics paths next
        (initialized || !decide (call.kernel.initCode < 0), store) := by
  unfold turnedAway at haway
  split at haway
  · rename_i hcode
    obtain ⟨rfl, hnegative⟩ := hcode
    have hprepared := h.prepared_uninitialized call hnegative
    obtain rfl := Option.some.inj haway
    refine ⟨adapter, ?_, ?_⟩
    · simp only [AdapterCall.runOn, hprepared]
      exact run_of_prepared_error system.toOperatingSystem hprepared
    · rw [decide_eq_true hnegative]
      exact h
  · rename_i hcode
    rw [ready_eq_true hcode]
    split at haway
    · rename_i misaligned hmisaligned
      obtain rfl := Option.some.inj haway
      obtain ⟨ready, hprepared, hnext⟩ := h.prepared_misaligned hcode hmisaligned
      refine ⟨ready, ?_, hnext⟩
      simp only [AdapterCall.runOn, hprepared]
      exact run_of_prepared_error system.toOperatingSystem hprepared
    · rename_i haligned
      obtain ⟨fd, prepared, hprepared, hnext, hcached⟩ :=
        h.prepared_aligned hreliable hpath hcode haligned
      split at haway
      · rename_i hslot
        obtain rfl := Option.some.inj haway
        obtain ⟨ring, hring, hquiescent⟩ := hnext.quiescent
        have hrefused : ¬ call.kernel.Submits := fun hsubmits => hsubmits.1 hslot
        refine ⟨prepared, ?_, hnext⟩
        simp only [AdapterCall.runOn, hprepared, if_neg hrefused]
        rw [run_of_prepared_ok system.toOperatingSystem hprepared hring,
          ringTransfer_queueFull _ _ _ _ _ _ hquiescent hslot, ← hring]
      · cases haway

/-- A call that is not turned away answers as the store does. -/
theorem RingRepresents.runOn_served
    (h : RingRepresents semantics paths adapter (initialized, store))
    (hreliable : semantics.Reliable paths) (hdistinct : Set.InjOn semantics.fileOf paths)
    {kernel : RingKernel ω} (hkernel : kernel.Performs semantics) {call : AdapterCall}
    (hpath : call.target.resourcePath ∈ paths) (hsubmit : ¬ call.kernel.submitCode < 0)
    (hserved : turnedAway system.strerror initialized call.kernel call.offset call.buffer = none) :
    ∃ report next, call.runOn system.toOperatingSystem kernel adapter = (report, next) ∧
      (⟨report.outcome, report.view⟩ : StoreAnswer) = (referenceStep store call.storeCall).1 ∧
      RingRepresents semantics paths next (initialized || !decide (call.kernel.initCode < 0),
        (referenceStep store call.storeCall).2) := by
  unfold turnedAway at hserved
  split at hserved
  · cases hserved
  · rename_i hcode
    rw [ready_eq_true hcode]
    split at hserved
    · cases hserved
    · rename_i haligned
      split at hserved
      · cases hserved
      · rename_i hslot
        obtain ⟨fd, prepared, hprepared, hnext, hcached⟩ :=
          h.prepared_aligned hreliable hpath hcode haligned
        obtain ⟨count, view, os, hexecute, hanswer, hrepresents⟩ :=
          hnext.execute hdistinct hkernel hpath hcached
        obtain ⟨ring, completion, hring, hrun⟩ :=
          runOn_submitted hprepared hnext.quiescent ⟨hslot, hsubmit⟩ hexecute
        exact ⟨_, _, hrun, hanswer, hrepresents, hnext.initialized, ring, rfl, hring⟩

/-- Every transfer on a ring is a step of the store behind it. -/
theorem RingRepresents.transfer (h : RingRepresents semantics paths adapter (initialized, store))
    (hreliable : semantics.Reliable paths) (hdistinct : Set.InjOn semantics.fileOf paths)
    {kernel : RingKernel ω} (hkernel : kernel.Performs semantics) (call : AdapterCall)
    (hpath : call.target.resourcePath ∈ paths) (hsubmit : ¬ call.kernel.submitCode < 0) :
    ∃ report next, call.runOn system.toOperatingSystem kernel adapter = (report, next) ∧
      (⟨report.outcome, report.view⟩ : StoreAnswer) =
        (ringReferenceTransfer system.strerror (initialized, store)
          (call.kernel, call.storeCall) call.offset call.buffer).1 ∧
      RingRepresents semantics paths next
        (ringReferenceTransfer system.strerror (initialized, store)
          (call.kernel, call.storeCall) call.offset call.buffer).2 := by
  unfold ringReferenceTransfer
  cases haway : turnedAway system.strerror initialized call.kernel call.offset call.buffer with
  | some e =>
    obtain ⟨next, hrun, hnext⟩ := h.runOn_turnedAway hreliable kernel hpath haway
    exact ⟨_, next, hrun, rfl, hnext⟩
  | none => exact h.runOn_served hreliable hdistinct hkernel hpath hsubmit haway

/-- A flush submits nothing and leaves the store. -/
theorem RingRepresents.flush (h : RingRepresents semantics paths adapter (initialized, store))
    (hreliable : semantics.Reliable paths) (submitCode : ℤ) (target : TargetDescriptor) :
    RingRepresents semantics paths
      (adapter.flush system.toOperatingSystem submitCode target) (initialized, store) := by
  obtain ⟨ring, hring, hquiescent⟩ := h.quiescent
  have hsame : (if adapter.initialized then
      { adapter with ring := adapter.ring.map fun ring => ring.submit submitCode }
    else adapter) = adapter := by
    split
    · rw [hring, Option.map_some, hquiescent.submit, ← hring]
    · rfl
  simp only [IoUringTargetAdapter.flush, hsame]
  cases hcached : adapter.fds.get? target.resourcePath with
  | none => exact h
  | some fd =>
    obtain ⟨cursor, hopen⟩ := h.represents.cached _ fd hcached
    exact ⟨h.represents.of_view_eq (hreliable.fsync adapter.os fd _ cursor hopen).2,
      h.initialized, h.quiescent⟩

/-- A close leaves the store behind an empty cache and rings to be set up again. -/
theorem RingRepresents.close (h : RingRepresents semantics paths adapter (initialized, store))
    (hreliable : semantics.Reliable paths) :
    RingRepresents semantics paths (adapter.close system.toOperatingSystem) (false, store) := by
  obtain ⟨ring, hring, hquiescent⟩ := h.quiescent
  have hclosed : Represents semantics paths Dict.empty
      (adapter.fds.values.foldl (fun os fd => (system.closeFile os fd).2) adapter.os) store := by
    apply represents_empty
    intro path hpath
    rw [content_closeAll hreliable]
    exact h.represents.content path hpath
  simp only [IoUringTargetAdapter.close, hring]
  cases hinit : adapter.initialized with
  | true => exact ⟨hclosed, rfl, Ring.empty, rfl, rfl, rfl⟩
  | false => exact ⟨hclosed, rfl, ring, rfl, hquiescent⟩

/-- Every call on a ring is a step of the store behind it. -/
theorem RingRepresents.step {state : Bool × (String → List Byte)}
    (h : RingRepresents semantics paths adapter state)
    (hreliable : semantics.Reliable paths) (hdistinct : Set.InjOn semantics.fileOf paths)
    {kernel : RingKernel ω} (hkernel : kernel.Performs semantics)
    {input : KernelAnswers × StoreCall} (haccepted : Accepted paths input) :
    (ringStep system.toOperatingSystem kernel adapter input).1 =
        (ringReferenceStep system.strerror state input).1 ∧
      RingRepresents semantics paths (ringStep system.toOperatingSystem kernel adapter input).2
        (ringReferenceStep system.strerror state input).2 := by
  obtain ⟨initialized, store⟩ := state
  obtain ⟨answers, call⟩ := input
  cases call with
  | write target offset payload =>
    obtain ⟨report, next, hrun, hanswer, hnext⟩ :=
      h.transfer hreliable hdistinct hkernel ⟨.write, answers, target, offset, payload⟩
        haccepted.1 haccepted.2
    simp only [ringStep, hrun]
    exact ⟨hanswer, hnext⟩
  | read target offset buffer =>
    obtain ⟨report, next, hrun, hanswer, hnext⟩ :=
      h.transfer hreliable hdistinct hkernel ⟨.read, answers, target, offset, buffer⟩
        haccepted.1 haccepted.2
    simp only [ringStep, hrun]
    exact ⟨hanswer, hnext⟩
  | flush target => exact ⟨rfl, h.flush hreliable answers.submitCode target⟩
  | close => exact ⟨rfl, h.close hreliable⟩

/-- Aligned calls that are given rings, a slot, and leave to submit. -/
structure Undisturbed (paths : Set String) (input : KernelAnswers × StoreCall) : Prop where
  aligned : input.2.Aligned paths
  init : ¬ input.1.initCode < 0
  submits : input.1.Submits

/-- Undisturbed calls are accepted. -/
theorem Undisturbed.accepted {input : KernelAnswers × StoreCall} (h : Undisturbed paths input) :
    Accepted paths input := by
  obtain ⟨answers, call⟩ := input
  cases call with
  | write target offset payload => exact ⟨h.aligned.1, h.submits.2⟩
  | read target offset buffer => exact ⟨h.aligned.1, h.submits.2⟩
  | flush target => exact h.aligned
  | close => trivial

/-- No undisturbed transfer is turned away. -/
theorem turnedAway_eq_none (strerror : ℤ → String) (initialized : Bool) {answers : KernelAnswers}
    {offset : ℕ} {buffer : DirectBuffer (List Byte)} (haligned : AlignedTransfer offset buffer)
    (hinit : ¬ answers.initCode < 0) (hsubmits : answers.Submits) :
    turnedAway strerror initialized answers offset buffer = none := by
  have hcode : ¬ (initialized = false ∧ answers.initCode < 0) := fun h => hinit h.2
  simp only [turnedAway, if_neg hcode, haligned.verifyAlignment, if_neg hsubmits.1]

/-- The store behind rings answers an undisturbed call like the plain store. -/
theorem ringReferenceStep_undisturbed (strerror : ℤ → String) (state : Bool × (String → List Byte))
    {input : KernelAnswers × StoreCall} (h : Undisturbed paths input) :
    (ringReferenceStep strerror state input).1 = (referenceStep state.2 input.2).1 ∧
      (ringReferenceStep strerror state input).2.2 = (referenceStep state.2 input.2).2 := by
  obtain ⟨answers, call⟩ := input
  cases call with
  | write target offset payload =>
    have hserved := turnedAway_eq_none strerror state.1 h.aligned.2 h.init h.submits
    simp only [ringReferenceStep, ringReferenceTransfer, hserved, and_self]
  | read target offset buffer =>
    have hserved := turnedAway_eq_none strerror state.1 h.aligned.2 h.init h.submits
    simp only [ringReferenceStep, ringReferenceTransfer, hserved, and_self]
  | flush target => exact ⟨rfl, rfl⟩
  | close => exact ⟨rfl, rfl⟩

/-- As long as no submission is refused, calls on a ring are answered as by the store of the
files at the start, or turned away before they reach it; and calls that nothing disturbs are
answered as by the direct I/O adapter. -/
theorem ring_refines_store (semantics : FileSemantics F system.toOperatingSystem)
    (hreliable : semantics.Reliable paths) (hdistinct : Set.InjOn semantics.fileOf paths)
    {kernel : RingKernel ω} (hkernel : kernel.Performs semantics) (os : ω) (queueDepth : ℕ)
    (inputs : List (KernelAnswers × StoreCall))
    (haccepted : ∀ input ∈ inputs, Accepted paths input) :
    machineOutputs (ringStep system.toOperatingSystem kernel)
        (IoUringTargetAdapter.init true queueDepth os) inputs =
      machineOutputs (ringReferenceStep system.strerror) (false, storeOf semantics os) inputs ∧
      ((∀ input ∈ inputs, Undisturbed paths input) →
        machineOutputs (ringStep system.toOperatingSystem kernel)
            (IoUringTargetAdapter.init true queueDepth os) inputs =
          machineOutputs (posixStep system) (PosixDirectIOAdapter.init os)
            (inputs.map Prod.snd)) := by
  have hempty : Represents semantics paths Dict.empty os (storeOf semantics os) :=
    represents_empty fun _ _ => rfl
  have hring : machineOutputs (ringStep system.toOperatingSystem kernel)
      (IoUringTargetAdapter.init true queueDepth os) inputs =
        machineOutputs (ringReferenceStep system.strerror) (false, storeOf semantics os)
          (inputs.map id) := by
    apply machineOutputs_simulation id (RingRepresents semantics paths) (Accepted paths)
    · intro _ _ _ h haccepted
      exact h.step hreliable hdistinct hkernel haccepted
    · exact ⟨hempty, rfl, Ring.empty, rfl, rfl, rfl⟩
    · exact haccepted
  rw [List.map_id] at hring
  refine ⟨hring, ?_⟩
  intro hundisturbed
  have hplain : machineOutputs (ringReferenceStep system.strerror)
      (false, storeOf semantics os) inputs =
        machineOutputs referenceStep (storeOf semantics os) (inputs.map Prod.snd) := by
    apply machineOutputs_simulation Prod.snd (fun state store => state.2 = store)
      (Undisturbed paths)
    · rintro state _ input rfl h
      exact ringReferenceStep_undisturbed system.strerror state h
    · rfl
    · exact hundisturbed
  have hposix : machineOutputs (posixStep system) (PosixDirectIOAdapter.init os)
      (inputs.map Prod.snd) =
        machineOutputs referenceStep (storeOf semantics os) ((inputs.map Prod.snd).map id) := by
    apply machineOutputs_simulation id (PosixRepresents semantics paths) (StoreCall.Aligned paths)
    · intro _ _ _ h haligned
      exact h.step hreliable hdistinct haligned
    · exact ⟨hempty, rfl⟩
    · exact List.forall_mem_map.mpr fun input hinput => (hundisturbed input hinput).aligned
  rw [List.map_id] at hposix
  rw [hring, hplain, hposix]

end Refinement

/-- A disk executing requests. -/
def diskKernel : RingKernel Disk where
  execute := fun disk operation =>
    match operation with
    | .write fd data offset =>
      match disk.view.descriptor fd with
      | none => ((-9, data), disk)
      | some (file, _) =>
        ((data.length, data),
          { disk with
            files := Function.update disk.files file (writeAt (disk.files file) offset data)
            writes := disk.writes ++ [⟨file, offset, data⟩] })
    | .read fd view offset =>
      match disk.view.descriptor fd with
      | none => ((-9, view), disk)
      | some (file, _) =>
        (((readAt (disk.files file) offset view.length).length,
          filled view (readAt (disk.files file) offset view.length)), disk)

/-- A disk moves every transfer in full. -/
theorem diskKernel_performs (moved : ℕ → ℕ → ℕ) :
    diskKernel.Performs (diskSemantics moved) where
  write := by
    intro disk fd file cursor data offset hopen
    change disk.view.descriptor fd = some (file, cursor) at hopen
    simp only [diskKernel, hopen]
    exact ⟨_, rfl, rfl, rfl⟩
  read := by
    intro disk fd file cursor view offset hopen
    change disk.view.descriptor fd = some (file, cursor) at hopen
    simp only [diskKernel, hopen]
    exact ⟨_, rfl, rfl⟩

/-- A kernel that turns away a call for want of a slot, or not. -/
def ringAnswers (slot : Bool) : KernelAnswers where
  initCode := 0
  slot := slot
  flushCode := 0
  retrySlot := slot
  submitCode := 1
  result := 0
  fill := id

/-- A page written when the ring is full. -/
def fullRingWrite : KernelAnswers × StoreCall :=
  (ringAnswers false, .write ⟨"file://a", "a"⟩ (0 * 4096) (pageBuffer 1))

/-- Pages written, read back, and read after a close. -/
def freeRingCalls : List (KernelAnswers × StoreCall) :=
  [(ringAnswers true, .write ⟨"file://a", "a"⟩ (1 * 4096) (pageBuffer 1)),
    (ringAnswers true, .read ⟨"file://a", "a"⟩ (1 * 4096) (pageBuffer 0)),
    (ringAnswers true, .flush ⟨"file://a", "a"⟩), (ringAnswers true, .close),
    (ringAnswers true, .read ⟨"file://a", "a"⟩ (0 * 4096) (pageBuffer 0))]

/-- None of them is disturbed. -/
theorem freeRingCalls_undisturbed :
    ∀ input ∈ freeRingCalls, Undisturbed Set.univ input := by
  have hsubmits : (ringAnswers true).Submits := by decide
  simp only [freeRingCalls, List.forall_mem_cons]
  refine ⟨⟨⟨trivial, pageBuffer_aligned 1 1⟩, by decide, hsubmits⟩,
    ⟨⟨trivial, pageBuffer_aligned 1 0⟩, by decide, hsubmits⟩, ⟨trivial, by decide, hsubmits⟩,
    ⟨trivial, by decide, hsubmits⟩, ⟨⟨trivial, pageBuffer_aligned 0 0⟩, by decide, hsubmits⟩, ?_⟩
  exact List.forall_mem_nil _

/-- On an empty disk, with a write on a full ring before them, they are answered as by an empty
store; and without it, as by the direct I/O adapter. -/
theorem ring_refines_store_full_then_free :
    machineOutputs (ringStep (diskSystem fun _ length => length).toOperatingSystem diskKernel)
        (IoUringTargetAdapter.init true 64 Disk.empty)
        (fullRingWrite :: freeRingCalls) =
      machineOutputs (ringReferenceStep fun _ => "Unknown error") (false, fun _ => [])
        (fullRingWrite :: freeRingCalls) ∧
      machineOutputs (ringStep (diskSystem fun _ length => length).toOperatingSystem diskKernel)
          (IoUringTargetAdapter.init true 64 Disk.empty) freeRingCalls =
        machineOutputs (posixStep (diskSystem fun _ length => length))
          (PosixDirectIOAdapter.init Disk.empty) (freeRingCalls.map Prod.snd) := by
  have hfree : ∀ input ∈ freeRingCalls, Accepted Set.univ input :=
    fun input hinput => (freeRingCalls_undisturbed input hinput).accepted
  have hfull : Accepted Set.univ fullRingWrite := ⟨trivial, by decide⟩
  constructor
  · exact (ring_refines_store (diskSemantics fun _ length => length) diskSemantics_reliable
      Function.injective_id.injOn (diskKernel_performs _) Disk.empty 64 _
      (List.forall_mem_cons.mpr ⟨hfull, hfree⟩)).1
  · exact (ring_refines_store (diskSemantics fun _ length => length) diskSemantics_reliable
      Function.injective_id.injOn (diskKernel_performs _) Disk.empty 64 freeRingCalls hfree).2
      freeRingCalls_undisturbed

end Steve.Adapters
